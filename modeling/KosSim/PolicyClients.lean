import KosSim.Library.Bracketed
import KosSim.PolicyCache
import KosSim.PolicyTokens

/-!
The scripts that use PolicyForge: the workflow of checker.py and the three exploits, each a handler
of several requests, so that the calls of any others may come between theirs.
-/

namespace KosSim.PolicyForge
open Library Library.Base64 Library.Handler
open PolicyDsl (Text CaseMap Rule)

/-! The source. -/

def Answer.status : Answer → Nat
  | .error status _ => status
  | _ => 200

inductive Outcome where
  | answer (value : Answer)
  | verdict (fine : Bool)
  | printed (flags : List Text)
  | stopped

abbrev Script := Handler State Act Outcome

def flagOpener : Text := "FLAG\x7b".toList

def flagCloser : Char := '\x7d'

/-- FLAG_RE.findall -/
def findFlags (data : Text) : List Text := brackets flagOpener flagCloser data

/-- What the exploits do with the data of an object. -/
def printFlags (data : Text) : Outcome :=
  match findFlags data with
  | [] => .stopped
  | flags => .printed flags.eraseDups

/-- The member `data` of an answer's body, or of its member `object`. -/
def dataOf : Answer → Text
  | .object obj => obj.data
  | _ => []

def objectDataOf : Answer → Text
  | .allow _ (some data) => data
  | _ => []

variable (env : Env)

/-- clock: the time of each request. -/
def exp1 (info : AttackInfo) (clock : Nat → Int) : Script :=
  if info.p ≠ 0 then pure .stopped
  else do
    match ← serve env (.guestSession (clock 0)) with
    | .session token => do
        let warm ← serve env (.object info.b (some token) (clock 1))
        if 400 ≤ warm.status then pure .stopped
        else do
          let r ← serve env (.object info.a (some token) (clock 2))
          if r.status ≠ 200 then pure .stopped else pure (printFlags (dataOf r))
    | _ => pure .stopped

def exp2 (info : AttackInfo) : Script :=
  if info.p ≠ 1 then pure .stopped
  else do
    match ← serve env (.shareIssue (some publicSnapshot)) with
    | .shareToken token => do
        let r ← serve env (.shareObject token info.a)
        if r.status ≠ 200 then pure .stopped else pure (printFlags (dataOf r))
    | _ => pure .stopped

def exp3 (info : AttackInfo) (clock : Nat → Int) : Script :=
  if info.p ≠ 2 then pure .stopped
  else do
    match ← serve env (.guestSession (clock 0)) with
    | .session token => do
        let expr := "unless never allow private::".toList ++ info.a
        let r ← serve env (.policyEval (some token) (some expr) (clock 1))
        if r.status ≠ 200 then pure .stopped else pure (printFlags (objectDataOf r))
    | _ => pure .stopped

/-- One request whose answer is looked at before the rest. -/
def expect (request : Request) (fine : Answer → Bool) (rest : Script) : Script := do
  let found ← serve env request
  if fine found then rest else pure (.verdict false)

def each (variants : List Int) (step : Int → Script → Script) (rest : Script) : Script :=
  variants.foldr step rest

def taskOf (method : String) (tick variant : Int) (flag : Option Text) : Request :=
  .task (some env.secret) none ⟨some method.toList, some tick, some tick, some variant, flag⟩

/-- json.loads takes the attack info; besides what is read here, Python takes NaN and the infinities. -/
def Answer.isPlanted : Answer → Bool
  | .planted info => (Json.parse info).isSome
  | _ => false

def Answer.isOk : Answer → Bool
  | .done result => result = "OK".toList
  | _ => false

def Answer.namesVariants : Answer → Bool
  | .counts flagVariants noiseVariants havocVariants =>
      3 ≤ flagVariants && 3 ≤ noiseVariants && 6 ≤ havocVariants
  | _ => false

def Answer.listsPublic : Answer → Bool
  | .catalog objects => objects.any fun obj => obj.id = publicObject
  | _ => false

def Answer.isAllow : Answer → Bool
  | .allow _ _ => true
  | _ => false

def Answer.showsPublic : Answer → Bool
  | .object obj => obj.isPublic
  | _ => false

/-- The workflow behind the session. -/
def surface (token : Text) (clock : Nat → Int) : Script :=
  expect env .objects Answer.listsPublic <|
    expect env (.policyEval (some token) (some "allow public::public-incident".toList) (clock 1))
        Answer.isAllow do
      match ← serve env (.shareIssue (some publicSnapshot)) with
      | .shareToken share =>
          if '.' ∈ share then
            expect env (.shareObject share publicObject) Answer.showsPublic (pure (.verdict true))
          else pure (.verdict false)
      | _ => pure (.verdict false)

def workflow (tick : Int) (flag : Int → Text) (clock : Nat → Int) : Script :=
  expect env (.service (some env.secret) none) Answer.namesVariants <|
    each [0, 1, 2] (fun v => expect env (taskOf env "PUTFLAG" tick v (some (flag v))) Answer.isPlanted) <|
    each [0, 1, 2] (fun v => expect env (taskOf env "GETFLAG" tick v (some (flag v))) Answer.isOk) <|
    each [0, 1, 2] (fun v rest => expect env (taskOf env "PUTNOISE" tick v none) Answer.isOk
      (expect env (taskOf env "GETNOISE" tick v none) Answer.isOk rest)) <|
    each [0, 1, 2, 3, 4, 5] (fun v => expect env (taskOf env "HAVOC" tick v none) Answer.isOk) do
      match ← serve env (.guestSession (clock 0)) with
      | .session token => if '.' ∈ token then surface env token clock else pure (.verdict false)
      | _ => pure (.verdict false)

/-- Whoever uses the service. -/
inductive Client where
  | request (request : Request)
  | checker (tick : Int) (flag : Int → Text) (clock : Nat → Int)
  | exp1 (info : AttackInfo) (clock : Nat → Int)
  | exp2 (info : AttackInfo)
  | exp3 (info : AttackInfo) (clock : Nat → Int)

def script : Client → Script
  | .request request => do
      let answer ← serve env request
      pure (.answer answer)
  | .checker tick flag clock => workflow env tick flag clock
  | .exp1 info clock => exp1 env info clock
  | .exp2 info => exp2 env info
  | .exp3 info clock => exp3 env info clock

abbrev ClientPool := Pool State Client Act Outcome

/-- Any run of any clients, and restarts. -/
abbrev Runs (more : State → Act → Prop) : ClientPool → ClientPool → Prop :=
  Served (script env) (agentUnder env more) fun _ _ => True

/-! The exploits only read. -/

section Exploits
variable {env} {system : System State Act} {contract : Contract system}
  (reads : ∀ request, request.Reads → ∀ state, (serve env request).Sound contract (fun _ _ => True) state)
include reads

theorem exp1_calls (info : AttackInfo) (clock : Nat → Int) (state : State) :
    (exp1 env info clock).Sound contract (fun _ _ => True) state := by
  unfold exp1
  split
  · exact trivial
  refine sound_bind (reads (.guestSession (clock 0)) trivial state) fun answer now _ _ => ?_
  split
  · refine sound_bind (reads (.object info.b (some _) (clock 1)) trivial now) fun warm later _ _ => ?_
    split
    · exact trivial
    · refine sound_bind (reads (.object info.a (some _) (clock 2)) trivial later) fun r last _ _ => ?_
      split <;> exact trivial
  · exact trivial

theorem exp2_calls (info : AttackInfo) (state : State) :
    (exp2 env info).Sound contract (fun _ _ => True) state := by
  unfold exp2
  split
  · exact trivial
  refine sound_bind (reads (.shareIssue (some publicSnapshot)) trivial state) fun answer now _ _ => ?_
  split
  · refine sound_bind (reads (.shareObject _ info.a) trivial now) fun r last _ _ => ?_
    split <;> exact trivial
  · exact trivial

theorem exp3_calls (info : AttackInfo) (clock : Nat → Int) (state : State) :
    (exp3 env info clock).Sound contract (fun _ _ => True) state := by
  unfold exp3
  split
  · exact trivial
  refine sound_bind (reads (.guestSession (clock 0)) trivial state) fun answer now _ _ => ?_
  split
  · refine sound_bind (reads (.policyEval (some _)
        (some ("unless never allow private::".toList ++ info.a)) (clock 1)) trivial now)
        fun r last _ _ => ?_
    split <;> exact trivial
  · exact trivial

end Exploits

/-! No script makes the agent fail. -/

section Known
variable {env} {system : System State Act} {contract : Contract system}
  (fine : ∀ state act, Known state act → contract.ok state act)
  (lasting : ∀ one other, contract.grows one other → Grown one.mem.objects other.mem.objects)
include fine lasting

theorem then_known {request : Request} {next : Answer → Script} {state : State}
    (rest : ∀ answer now, (next answer).Sound contract (fun _ _ => True) now) :
    (serve env request >>= next).Sound contract (fun _ _ => True) state :=
  sound_bind (serve_known fine lasting request state) fun answer now _ _ => rest answer now

theorem expect_known {request : Request} {check : Answer → Bool} {rest : Script}
    (later : ∀ now, rest.Sound contract (fun _ _ => True) now) (state : State) :
    (expect env request check rest).Sound contract (fun _ _ => True) state := by
  refine then_known fine lasting fun answer now => ?_
  cases check answer with
  | false => exact trivial
  | true => exact later now

omit fine lasting in
theorem each_known {step : Int → Script → Script} {variants : List Int} {rest : Script}
    (one : ∀ v rest, (∀ now, rest.Sound contract (fun _ _ => True) now) →
      ∀ now, (step v rest).Sound contract (fun _ _ => True) now)
    (later : ∀ now, rest.Sound contract (fun _ _ => True) now) (state : State) :
    (each variants step rest).Sound contract (fun _ _ => True) state := by
  induction variants generalizing state with
  | nil => exact later state
  | cons v others ih => exact one v _ ih state

theorem surface_known (token : Text) (clock : Nat → Int) (state : State) :
    (surface env token clock).Sound contract (fun _ _ => True) state := by
  refine expect_known fine lasting (fun now => expect_known fine lasting (fun now => ?_) now) state
  refine then_known fine lasting fun answer now => ?_
  split
  · split
    · refine expect_known fine lasting (fun last => ?_) now
      exact trivial
    · exact trivial
  · exact trivial

theorem workflow_known (tick : Int) (flag : Int → Text) (clock : Nat → Int) (state : State) :
    (workflow env tick flag clock).Sound contract (fun _ _ => True) state := by
  have plain (v : Int → Request) (check : Answer → Bool) :
      ∀ v' rest, (∀ now, rest.Sound contract (fun _ _ => True) now) →
        ∀ now, (expect env (v v') check rest).Sound contract (fun _ _ => True) now :=
    fun _ _ later now => expect_known fine lasting later now
  refine expect_known fine lasting
    (each_known (plain _ _) (each_known (plain _ _) (each_known ?_ (each_known (plain _ _) ?_)))) state
  · exact fun _ _ later now => expect_known fine lasting
      (fun last => expect_known fine lasting later last) now
  · intro now
    refine then_known fine lasting fun answer last => ?_
    split
    · split
      · exact surface_known fine lasting _ clock last
      · exact trivial
    · exact trivial

theorem script_known (client : Client) (state : State) :
    (script env client).Sound contract (fun _ _ => True) state := by
  cases client with
  | request request => exact then_known fine lasting fun _ _ => trivial
  | checker tick flag clock => exact workflow_known fine lasting tick flag clock state
  | exp1 info clock =>
      exact exp1_calls (fun request _ now => serve_known fine lasting request now) info clock state
  | exp2 info => exact exp2_calls (fun request _ now => serve_known fine lasting request now) info state
  | exp3 info clock =>
      exact exp3_calls (fun request _ now => serve_known fine lasting request now) info clock state

end Known

/-- The pool behind a client that has nothing between its calls. -/
def visited (more : State → Act → Prop) (pool : ClientPool) (client : Client) : ClientPool :=
  let calls := (script env client).alone (agentUnder env more) pool.state
  { pool with
    state := calls.2.1
    arrivals := pool.arrivals + 1
    answered := pool.answered ++ [⟨pool.arrivals, client, calls.1⟩]
    acts := pool.acts ++ calls.2.2 }

theorem visited_run {env : Env} {more : State → Act → Prop} {client : Client} {pool : ClientPool}
    (met : (script env client).Meets (agentUnder env more) pool.state) :
    Runs env more pool (visited env more pool client) :=
  served_alone pool client trivial met

theorem client_run {env : Env} {more : State → Act → Prop} (client : Client) (pool : ClientPool)
    (met : (script env client).Meets (agentUnder env more) pool.state) :
    ∃ later : ClientPool, Runs env more pool later ∧
      ∃ entry ∈ later.answered, pool.arrivals ≤ entry.number ∧ entry.request = client := by
  have last : (⟨pool.arrivals, client,
      ((script env client).alone (agentUnder env more) pool.state).1⟩ : Entry Client Outcome) ∈
      (visited env more pool client).answered := List.mem_append_right _ (List.mem_singleton.mpr rfl)
  exact ⟨_, visited_run met, _, last, Nat.le_refl _, rfl⟩

/-- The pool behind a restart that ends every script. -/
def restarted (pool : ClientPool) : ClientPool :=
  { pool with
    state := init env pool.state.disk
    running := pool.running.filter fun _ => false
    acts := pool.acts ++ [.init] }

theorem restarted_run {env : Env} {more : State → Act → Prop} {pool : ClientPool}
    (met : (agentUnder env more).meets pool.state .init) : Runs env more pool (restarted env pool) :=
  Steps.snoc (Steps.refl pool) (.outside .init fun _ => true) ⟨rfl, met⟩ rfl

/-! The service without patches. -/

def shipped : Env where
  jason := jsonSessions
  cases := PolicyDsl.asciiCase
  patches := ⟨false, false, false, false, false⟩

theorem boot_distinct {env : Env} (distinct : ((Act.objects env .init).map fun obj => obj.id).Nodup) :
    BootApart env :=
  fun _ here _ there same => List.inj_on_of_nodup_map distinct there here same

theorem shipped_apart : BootApart shipped := boot_distinct (by decide +kernel)

/-! What is found and what is decided. -/

/-- In every run, the flag that is found for a tick and a variant is the last that was written for them. -/
theorem flags_found (env : Env) (apart : BootApart env) {pool : ClientPool}
    (run : Runs env (fun _ _ => True) (started env) pool) (tick payload : Int) (expected : Text) :
    getFlag pool.state.mem tick payload expected = true ↔
      lastFlag env pool.acts (tick, payload) = some expected :=
  flag_found_iff apart (fun client state => script_known (fun _ _ known => known)
    (fun _ _ grown => grown) client state) run tick payload expected

/-- A flag is written over another one, with another client's listing between them, and the service starts again. -/
def rewritten : ClientPool :=
  let first := visited shipped (fun _ _ => True) (started shipped)
    (.request (taskOf shipped "PUTFLAG" 4 1 (some "old".toList)))
  let read := visited shipped (fun _ _ => True) first (.request .objects)
  let second :=
    visited shipped (fun _ _ => True) read (.request (taskOf shipped "PUTFLAG" 4 1 (some "new".toList)))
  restarted shipped second

theorem rewritten_run : Runs shipped (fun _ _ => True) (started shipped) rewritten := by
  refine Steps.then (visited_run ?_)
    (Steps.then (visited_run ?_) (Steps.then (visited_run ?_) (restarted_run ?_)))
  all_goals decide +kernel

theorem flags_found_shipped : getFlag rewritten.state.mem 4 1 "new".toList = true ∧
    ¬getFlag rewritten.state.mem 4 1 "old".toList = true := by
  refine ⟨(flags_found shipped shipped_apart rewritten_run 4 1 _).mpr (by decide +kernel), fun found => ?_⟩
  have last := (flags_found shipped shipped_apart rewritten_run 4 1 _).mp found
  exact absurd last (by decide +kernel)

/-- In every run, what a session may read goes by the first decision with its key since the cache
was emptied. -/
theorem cached_decision (env : Env) (apart : BootApart env) {pool : ClientPool}
    (run : Runs env (fun _ _ => True) (started env) pool) (session : Session) {id : Text}
    {obj : Obj} (stored : pool.state.mem.objects.get? id = some obj) :
    allowed? env pool.state.mem session id =
      some ((firstDecision env pool.state.mem.objects (cacheKeyOf env session obj) pool.acts).getD
        (grants session obj)) :=
  cache_decides apart (fun client state => script_known (fun _ _ known => known)
    (fun _ _ grown => grown) client state) run session stored

/-- Behind the planting of a flag for an incident, a guest reads the public one. -/
def warmed : ClientPool :=
  let planted := visited shipped (fun _ _ => True) (started shipped)
    (.request (taskOf shipped "PUTFLAG" 4 0 (some "FLAG".toList)))
  visited shipped (fun _ _ => True) planted
    (.request (.object publicObject (some (guestToken shipped 0)) 1))

theorem warmed_run : Runs shipped (fun _ _ => True) (started shipped) warmed := by
  refine Steps.then (visited_run ?_) (visited_run ?_)
  all_goals decide +kernel

/-- The decision for the public incident is answered again for the flag, which a guest may not read. -/
theorem cached_decision_shipped :
    allowed? shipped warmed.state.mem (guestSession 9) (flagObject shipped 4 0 "FLAG".toList).id =
      some true ∧ grants (guestSession 9) (flagObject shipped 4 0 "FLAG".toList) = false := by
  have stored : warmed.state.mem.objects.get? (flagObject shipped 4 0 "FLAG".toList).id =
      some (flagObject shipped 4 0 "FLAG".toList) := by decide +kernel
  refine ⟨(cached_decision shipped shipped_apart warmed_run (guestSession 9) stored).trans ?_, by decide⟩
  decide +kernel

end KosSim.PolicyForge
