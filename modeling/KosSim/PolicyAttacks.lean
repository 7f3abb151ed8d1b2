import KosSim.PolicyCache
import KosSim.PolicyChecks

/-!
The exploits of PolicyForge against a planted flag, whoever else uses the service between their
requests. Two of them always print the flag; the first prints it where the first decision under its
key in the cache was to allow.
-/

namespace KosSim.PolicyForge
open Library Library.Base64 Library.Handler
open PolicyDsl (Text CaseMap Rule)

/-- A flag as the checker makes them. -/
def flagOf (body : Text) : Text := flagOpener ++ body ++ [flagCloser]

def Stands (obj : Obj) (state : State) : Prop := state.mem.objects.get? obj.id = some obj

abbrev Anything (_ : State) (_ : Act) : Prop := True

/-- Nothing is planted, and the service is not started again. -/
def Quiet (_ : State) (act : Act) : Prop := act.clears = false

def flagInfo (env : Env) (tick payload : Int) (flag : Text) : AttackInfo :=
  attackInfo (flagObject env tick payload flag) payload

/-- The key of guests and incidents while the cache goes by classes. -/
def guestKey (env : Env) : Text := guest ++ ':' :: env.team ++ ':' :: incident

variable {env : Env}

theorem print_flag {body : Text} (some_ : body ≠ []) (free : flagCloser ∉ body) :
    printFlags (flagOf body) = .printed [flagOf body] := by
  have found : findFlags (flagOf body) = [flagOf body] := brackets_whole (by decide) some_ free
  rw [printFlags, found]
  rfl

theorem stands_grows (obj : Obj) (one other : State) (grown : Grown one.mem.objects other.mem.objects)
    (stands : Stands obj one) : Stands obj other := grown _ _ stands

variable (env) in
/-- The agent from the moment on at which an object is written. -/
abbrev standing (obj : Obj) : Contract (agentUnder env Anything) :=
  (tended env Anything).also (Stands obj) (stands_grows obj)

/-! From the moment on at which an object is written. -/

theorem script_honoured (more : State → Act → Prop) :
    Honoured (script env) (fun _ _ => True) (tended env more) (fun _ _ _ => True) 0 :=
  ⟨fun _ _ _ _ _ _ => trivial, fun _ client state _ _ _ => script_known (fun _ _ known => known)
    (fun _ _ grown => grown) client state⟩

structure Reached (env : Env) (pool : ClientPool) : Prop where
  kept : pool.Kept (tended env Anything) (fun _ _ _ => True) 0
  numbered : pool.Numbered
  stored : ∀ act ∈ pool.acts, ∀ obj ∈ act.objects env, Stands obj pool.state
  decided : Decided env pool.state pool.acts

theorem runs_reached (apart : BootApart env) {pool : ClientPool}
    (run : Runs env Anything (started env) pool) :
    Reached env pool := by
  have start : (started env : ClientPool).Kept (tended env Anything) (fun _ _ _ => True) 0 :=
    Pool.Kept.start (started_sane apart).1 _
  refine ⟨served_kept (script_honoured _) start run, served_numbered ?_ run, ?_, ?_⟩
  · exact ⟨fun _ member => (List.not_mem_nil member).elim, fun _ member => (List.not_mem_nil member).elim⟩
  · refine served_tracked (script_honoured Anything)
      (fun state acts => ∀ act ∈ acts, ∀ obj ∈ act.objects env, Stands obj state) ?_ start ?_ run
    · intro state acts act sane met known stored one member obj written
      obtain ⟨-, grown, fresh⟩ := apply_sane sane met.1 known
      rcases List.mem_append.mp member with old | new
      · exact stands_grows obj _ _ grown (stored one old obj written)
      · rw [List.mem_singleton.mp new] at written
        exact fresh obj written
    · intro act member obj written
      rw [List.mem_singleton.mp member] at written
      exact (started_sane apart).2 obj written
  · exact served_decided apart (fun client state => script_known (fun _ _ known => known)
      (fun _ _ grown => grown) client state) run

/-- Where a script has one outcome while an object stands, it has it in every run behind the
object's writing. -/
theorem attack_answers {client : Client} {obj : Obj} {outcome : Outcome}
    (sound : ∀ state, (script env client).Sound (standing env obj) (fun value _ => value = outcome) state)
    {pool later : ClientPool} (reached : Reached env pool) (stands : Stands obj pool.state)
    (run : Runs env Anything pool later) :
    ∀ entry ∈ later.answered, pool.arrivals ≤ entry.number → entry.request = client →
      entry.rest = outcome := by
  have honoured : Honoured (script env) (fun _ _ => True) (standing env obj)
      (fun other value _ => other = client → value = outcome) pool.arrivals := by
    refine ⟨fun _ _ _ _ _ known => known, fun _ other state _ _ _ => ?_⟩
    by_cases same : other = client
    · rw [same]
      exact sound_mono (sound state) fun _ _ _ known _ => known
    · refine sound_mono (script_known (fun _ _ known => known) (fun _ _ grown => grown) other state) ?_
      exact fun _ _ _ _ mine => absurd mine same
  have kept := served_kept honoured
    (Pool.Kept.resume reached.kept reached.numbered (Contract.also_narrower _ _ _) ⟨reached.kept.state,
      stands⟩ _) run
  exact fun entry member => kept.answered entry member

/-- A run that plants a flag under an id of its own. -/
theorem plant_run (env : Env) (tick v : Int) {flag : Text} (filled : flag ≠ [])
    (fresh : (init env none).mem.objects.get? (flagObject env tick v flag).id = none) :
    ∃ pool : ClientPool, Runs env Anything (started env) pool ∧ .putFlag tick v flag ∈ pool.acts := by
  have planting : script env (.request (taskOf env "PUTFLAG" tick v (some flag))) = (do
      let answer ← Handler.act (.putFlag tick v flag) fun _ =>
        .planted (attackInfo (flagObject env tick v flag) v).text
      pure (.answer answer)) := by
    rw [script, serve_put_flag filled]
  have met : (script env (.request (taskOf env "PUTFLAG" tick v (some flag)))).Meets
      (agentUnder env Anything) (init env none) := by
    rw [planting]
    refine ⟨fun change called => ?_, trivial⟩
    cases called
    refine ⟨fun obj member => ?_, trivial⟩
    rw [List.mem_singleton.mp member, fresh]
    exact ⟨fun _ there => (Option.not_mem_none _ there).elim,
      fun other same _ => List.mem_singleton.mp same⟩
  refine ⟨_, served_alone (started env) _ trivial met, ?_⟩
  rw [planting]
  exact List.mem_append_right _ List.mem_cons_self

theorem exploit_run {more : State → Act → Prop} (client : Client)
    (calls : ∀ state, (script env client).Sound (fitting (agentUnder env more)) (fun _ _ => True) state)
    (pool : ClientPool) :
    ∃ later : ClientPool, Runs env more pool later ∧
      ∃ entry ∈ later.answered, pool.arrivals ≤ entry.number ∧ entry.request = client :=
  client_run client pool (meets_of_fitting _ (calls pool.state))

/-! The share token and the keyword. -/

section Prints
variable {tick : Int} {body : Text} (some_ : body ≠ []) (free : flagCloser ∉ body)
include some_ free

theorem exp2_sound (open_ : env.patches.shareBinding = false) (state : State) :
    (script env (.exp2 (flagInfo env tick 1 (flagOf body)))).Sound
      (standing env (flagObject env tick 1 (flagOf body)))
      (fun value _ => value = .printed [flagOf body]) state := by
  have one : ¬(flagInfo env tick 1 (flagOf body)).p ≠ 1 := fun other => other rfl
  simp only [script, exp2]
  rw [if_neg one]
  have held (now : State) (kept : (standing env (flagObject env tick 1 (flagOf body))).keeps now) :
      Held env now.mem :=
    kept.1.held
  refine sound_bind (issue_sound held state) fun answer now _ issued => ?_
  rw [issued]
  dsimp only
  have read : (readObject (flagInfo env tick 1 (flagOf body)).a).Sound
      (standing env (flagObject env tick 1 (flagOf body)))
      (fun answer _ => answer = .object (flagObject env tick 1 (flagOf body))) now := by
    refine sound_ask_bind fun last _ kept => ?_
    have there : last.mem.objects.get? (flagInfo env tick 1 (flagOf body)).a =
        some (flagObject env tick 1 (flagOf body)) := kept.2
    rw [there]
    exact rfl
  simp only [serve, serveShare, verify_share, open_, Bool.false_eq_true, if_false]
  refine sound_bind read fun answer _ _ found => ?_
  rw [found]
  exact print_flag some_ free

theorem exp3_sound (open_ : env.patches.evalData = false)
    (keyword : env.patches.unlessKeyword = false) {clock : Nat → Int}
    (fresh : clock 1 ≤ clock 0 + 86400) (state : State) :
    (script env (.exp3 (flagInfo env tick 2 (flagOf body)) clock)).Sound
      (standing env (flagObject env tick 2 (flagOf body)))
      (fun value _ => value = .printed [flagOf body]) state := by
  have two : ¬(flagInfo env tick 2 (flagOf body)).p ≠ 2 := fun other => other rfl
  have plain : ' ' ∉ (flagInfo env tick 2 (flagOf body)).a :=
    fun blank => absurd (hash_digits env _ ' ' blank) (by decide)
  have ruled : PolicyDsl.eval env.cases (!env.patches.unlessKeyword)
      ("unless never allow private::".toList ++ (flagInfo env tick 2 (flagOf body)).a) =
        .load (flagInfo env tick 2 (flagOf body)).a := by
    refine (PolicyDsl.eval_loads_iff env.cases _ _ _ plain).mpr ?_
    exact .guarded (by rw [keyword]; rfl) "never".toList PolicyDsl.allowPrivate (by decide) (by decide)
  have loaded (now : State) :
      (eval env ("unless never allow private::".toList ++ (flagInfo env tick 2 (flagOf body)).a)).Sound
      (standing env (flagObject env tick 2 (flagOf body)))
      (fun answer _ => answer = .allow (flagObject env tick 2 (flagOf body)).toListed
        (some (flagOf body))) now := by
    unfold eval
    rw [ruled]
    refine sound_ask_bind fun last _ kept => ?_
    have there : last.mem.objects.get? (flagInfo env tick 2 (flagOf body)).a =
        some (flagObject env tick 2 (flagOf body)) := kept.2
    rw [there]
    dsimp only
    rw [open_]
    exact rfl
  have session : (serve env (.guestSession (clock 0))).Sound
      (standing env (flagObject env tick 2 (flagOf body)))
      (fun answer _ => answer = .session (guestToken env (clock 0))) state := rfl
  simp only [script, exp3]
  rw [if_neg two]
  refine sound_bind session fun answer now _ issued => ?_
  rw [issued]
  dsimp only
  simp only [serve, verify_guest fresh, Option.getD_some]
  refine sound_bind (loaded now) fun answer _ _ found => ?_
  rw [found]
  exact print_flag some_ free

end Prints

/-- With the token of the public snapshot: every run of the exploit behind the planting of a flag
prints it. -/
theorem exp2_prints (env : Env) (apart : BootApart env) (open_ : env.patches.shareBinding = false)
    (tick : Int) {body : Text} (some_ : body ≠ []) (free : flagCloser ∉ body)
    {pool later : ClientPool} (first : Runs env Anything (started env) pool)
    (planted : .putFlag tick 1 (flagOf body) ∈ pool.acts) (run : Runs env Anything pool later) :
    ∀ entry ∈ later.answered, pool.arrivals ≤ entry.number →
      entry.request = .exp2 (flagInfo env tick 1 (flagOf body)) → entry.rest = .printed [flagOf body] := by
  have reached := runs_reached apart first
  have stands := reached.stored _ planted _ (List.mem_singleton.mpr rfl)
  exact attack_answers (exp2_sound some_ free open_) reached stands run

theorem exp2_prints_shipped : ∃ later : ClientPool, Runs shipped Anything (started shipped) later ∧
    ∃ entry ∈ later.answered, entry.rest = .printed ["FLAG\x7bshares\x7d".toList] := by
  obtain ⟨pool, first, planted⟩ :=
    plant_run shipped 4 1 (show flagOf "shares".toList ≠ [] by decide) (by decide +kernel)
  obtain ⟨later, run, entry, answered, number, asked⟩ := exploit_run
    (.exp2 (flagInfo shipped 4 1 (flagOf "shares".toList)))
    (exp2_calls (fun _ reads => @reads_fitting shipped Anything (fun _ _ _ => trivial) _ reads) _) pool
  exact ⟨later, first.then run, entry, answered,
    exp2_prints shipped shipped_apart rfl 4 (by decide)
    (by decide) first planted run entry answered number asked⟩

/-- With the keyword that hides the search for private objects. -/
theorem exp3_prints (env : Env) (apart : BootApart env) (open_ : env.patches.evalData = false)
    (keyword : env.patches.unlessKeyword = false) (tick : Int) {body : Text} (some_ : body ≠ [])
    (free : flagCloser ∉ body) (clock : Nat → Int) (fresh : clock 1 ≤ clock 0 + 86400)
    {pool later : ClientPool} (first : Runs env Anything (started env) pool)
    (planted : .putFlag tick 2 (flagOf body) ∈ pool.acts) (run : Runs env Anything pool later) :
    ∀ entry ∈ later.answered, pool.arrivals ≤ entry.number →
      entry.request = .exp3 (flagInfo env tick 2 (flagOf body)) clock →
      entry.rest = .printed [flagOf body] := by
  have reached := runs_reached apart first
  have stands := reached.stored _ planted _ (List.mem_singleton.mpr rfl)
  exact attack_answers (exp3_sound some_ free open_ keyword fresh) reached stands run

theorem exp3_prints_shipped : ∃ later : ClientPool, Runs shipped Anything (started shipped) later ∧
    ∃ entry ∈ later.answered, entry.rest = .printed ["FLAG\x7bunless\x7d".toList] := by
  obtain ⟨pool, first, planted⟩ :=
    plant_run shipped 4 2 (show flagOf "unless".toList ≠ [] by decide) (by decide +kernel)
  obtain ⟨later, run, entry, answered, number, asked⟩ :=
    exploit_run (.exp3 (flagInfo shipped 4 2 (flagOf "unless".toList)) fun request => request)
      (exp3_calls (fun _ reads => @reads_fitting shipped Anything (fun _ _ _ => trivial) _ reads) _ _) pool
  exact ⟨later, first.then run, entry, answered,
    exp3_prints shipped shipped_apart rfl rfl 4 (by decide)
    (by decide) _ (by decide) first planted run entry answered number asked⟩

/-! The cache. -/

variable (env) in
/-- While nothing empties the cache, it only grows. -/
def quietly (obj : Obj) : Contract (agentUnder env Quiet) where
  keeps state := Sane env state ∧ Stands obj state
  grows one other := Grown one.mem.objects other.mem.objects ∧ Grown one.mem.cache other.mem.cache
  ok := Known
  refl state := ⟨grown_refl _, grown_refl _⟩
  trans first second := ⟨grown_trans first.1 second.1, grown_trans first.2 second.2⟩
  step state act kept met known := by
    obtain ⟨sane, grown, -⟩ := apply_sane kept.1 met.1 known
    refine ⟨⟨sane, stands_grows obj _ _ grown kept.2⟩, grown, fun key value found => ?_⟩
    have quiet : act.clears = false := met.2
    have there : state.mem.cache.get? key = some value := found
    refine (apply_cache known key).trans ?_
    rw [quiet, if_neg Bool.false_ne_true, there]
    rfl
  outside _ _ _ outer _ _ _ same := by
    cases same
    cases outer

theorem quietly_narrower (obj : Obj) : (tended env Anything).Narrower (quietly env obj) where
  apply := rfl
  meets := fun _ _ met => ⟨met.1, trivial⟩
  keeps := fun _ kept => kept.1
  grows := fun _ _ grown => grown.1
  ok := fun _ _ known => known

/-- The answer to a read is the decision that stands in the cache from then on. -/
theorem read_sound {target : Obj} (obj : Obj)
    (there : ∀ state, (quietly env target).keeps state → Stands obj state) {token : Text}
    {clock : Int} {claims : Session} (verified : verifySession env (some token) clock = some claims)
    (state : State) :
    (serve env (.object obj.id (some token) clock)).Sound (quietly env target)
      (fun answer now => ∃ allowed, now.mem.cache.get? (cacheKeyOf env claims obj) = some allowed ∧
        answer = (if allowed then .object obj else failed 403 "denied") ∧
        (state.mem.cache.get? (cacheKeyOf env claims obj)).getD allowed = allowed) state := by
  simp only [serve, serveObject, verified]
  refine sound_ask_bind fun one grown kept => ?_
  have found : one.mem.objects.get? obj.id = some obj := there one kept
  rw [found]
  refine sound_act_bind fun now later still => ?_
  have stored : now.mem.objects.get? obj.id = some obj := there now still
  have known := known_found stored (grown_refl _) claims
  refine ⟨known, fun _ => ?_⟩
  have made : allowed? env now.mem claims obj.id =
      some ((now.mem.cache.get? (cacheKeyOf env claims obj)).getD (grants claims obj)) := by
    rw [allowed?, stored]
    rfl
  have kept_ : (apply env now (.allowed claims obj.id)).mem.cache.get? (cacheKeyOf env claims obj) =
      some ((now.mem.cache.get? (cacheKeyOf env claims obj)).getD (grants claims obj)) := by
    rw [apply_cache known, Act.decides, stored, Option.bind_some, if_pos rfl]
    cases now.mem.cache.get? (cacheKeyOf env claims obj) <;> rfl
  have old : (state.mem.cache.get? (cacheKeyOf env claims obj)).getD
      ((now.mem.cache.get? (cacheKeyOf env claims obj)).getD (grants claims obj)) =
        (now.mem.cache.get? (cacheKeyOf env claims obj)).getD (grants claims obj) := by
    cases before : state.mem.cache.get? (cacheKeyOf env claims obj) with
    | none => rfl
    | some value => rw [((quietly env target).trans grown later).2 _ _ before]; rfl
  rw [made]
  generalize (now.mem.cache.get? (cacheKeyOf env claims obj)).getD (grants claims obj) =
    allowed at kept_ old
  cases allowed with
  | false => exact ⟨false, kept_, rfl, old⟩
  | true => exact ⟨true, kept_, rfl, old⟩

/-- The flag is printed or not as the decision under the guests' key stands. -/
def AsCached (env : Env) (flag : Text) (value : Outcome) (now : State) : Prop :=
  ∃ allowed, now.mem.cache.get? (guestKey env) = some allowed ∧
    value = if allowed then .printed [flag] else .stopped

theorem guest_key (obj : Obj) (off : env.patches.cacheKey = false) (tenant : obj.tenant = env.team)
    (className : obj.className = incident) (now : Int) :
    cacheKeyOf env (guestSession now) obj = guestKey env := by
  rw [cacheKeyOf, off, tenant, className]
  rfl

section Cached
variable {tick : Int} {body : Text} (some_ : body ≠ []) (free : flagCloser ∉ body)
include some_ free

theorem exp1_sound (open_ : env.patches.cacheKey = false) {clock : Nat → Int}
    (warm : clock 1 ≤ clock 0 + 86400) (fresh : clock 2 ≤ clock 0 + 86400) (state : State) :
    (script env (.exp1 (flagInfo env tick 0 (flagOf body)) clock)).Sound
      (quietly env (flagObject env tick 0 (flagOf body))) (AsCached env (flagOf body)) state := by
  have zero : ¬(flagInfo env tick 0 (flagOf body)).p ≠ 0 := fun other => other rfl
  have session :
      (serve env (.guestSession (clock 0))).Sound (quietly env (flagObject env tick 0 (flagOf body)))
      (fun answer _ => answer = .session (guestToken env (clock 0))) state := rfl
  have seedKey := guest_key (seedObject env) open_ rfl rfl (clock 0)
  have flagKey := guest_key (flagObject env tick 0 (flagOf body)) open_ rfl rfl (clock 0)
  simp only [script, exp1]
  rw [if_neg zero]
  refine sound_bind session fun answer now _ issued => ?_
  rw [issued]
  dsimp only
  refine sound_bind (read_sound (seedObject env) (fun _ kept => kept.1.held.seed) (verify_guest warm) now)
    fun answer one _ asked => ?_
  obtain ⟨allowed, cached, answered, -⟩ := asked
  rw [seedKey] at cached
  rw [answered]
  cases allowed with
  | false => exact ⟨false, cached, rfl⟩
  | true =>
      have fine : ¬400 ≤ (Answer.object (seedObject env)).status := show ¬400 ≤ 200 by decide
      rw [if_pos rfl, if_neg fine]
      refine sound_bind (read_sound (flagObject env tick 0 (flagOf body)) (fun _ kept => kept.2)
        (verify_guest fresh) one) fun answer last grown read => ?_
      obtain ⟨again, later, shown, same⟩ := read
      rw [flagKey, cached] at same
      have yes_ : again = true := same.symm
      rw [flagKey] at later
      rw [shown, yes_]
      refine ⟨true, yes_ ▸ later, ?_⟩
      exact print_flag some_ free

end Cached

/-- With the cache that goes by classes, as long as nothing empties it: the exploit prints the flag
where the first decision for a guest and an incident was to allow, and stops where it was not. -/
theorem exp1_prints (env : Env) (apart : BootApart env) (open_ : env.patches.cacheKey = false)
    (tick : Int) {body : Text} (some_ : body ≠ []) (free : flagCloser ∉ body) (clock : Nat → Int)
    (warm : clock 1 ≤ clock 0 + 86400) (fresh : clock 2 ≤ clock 0 + 86400) {pool later : ClientPool}
    (first : Runs env Anything (started env) pool)
    (planted : .putFlag tick 0 (flagOf body) ∈ pool.acts) (run : Runs env Quiet pool later) :
    ∀ entry ∈ later.answered, pool.arrivals ≤ entry.number →
      entry.request = .exp1 (flagInfo env tick 0 (flagOf body)) clock →
      entry.rest = if firstDecision env later.state.mem.objects (guestKey env) later.acts = some true
        then .printed [flagOf body] else .stopped := by
  have reached := runs_reached apart first
  have stands := reached.stored _ planted _ (List.mem_singleton.mpr rfl)
  let target := flagObject env tick 0 (flagOf body)
  have honoured : Honoured (script env) (fun _ _ => True) (quietly env target)
      (fun client value now => client = .exp1 (flagInfo env tick 0 (flagOf body)) clock →
        AsCached env (flagOf body) value now) pool.arrivals := by
    refine ⟨fun client value one other grown known mine => ?_, fun _ client state _ _ _ => ?_⟩
    · obtain ⟨allowed, cached, outcome⟩ := known mine
      exact ⟨allowed, grown.2 _ _ cached, outcome⟩
    · by_cases same : client = .exp1 (flagInfo env tick 0 (flagOf body)) clock
      · rw [same]
        exact sound_mono (exp1_sound some_ free open_ warm fresh state) fun _ _ _ known _ => known
      · refine sound_mono (@script_known env _ (quietly env target) (fun _ _ known => known)
          (fun _ _ grown => grown.1) client state) ?_
        exact fun _ _ _ _ mine => absurd mine same
  have start := Pool.Kept.resume reached.kept reached.numbered (quietly_narrower target)
    ⟨reached.kept.state, stands⟩
    fun client value now => client = .exp1 (flagInfo env tick 0 (flagOf body)) clock →
    AsCached env (flagOf body) value now
  have kept := served_kept honoured start run
  have decided := served_tracked honoured (Decided env)
    (fun state acts act keeps met known decided => apply_decided keeps.1 met.1 known decided) start
    reached.decided run
  intro entry member later_ mine
  obtain ⟨allowed, cached, outcome⟩ := kept.answered entry member later_ mine
  rw [decided.cache] at cached
  rw [outcome, cached]
  cases allowed <;> rfl

/-- Behind the planting of a flag for an incident. -/
def warmedUp : ClientPool :=
  visited shipped Anything (started shipped)
    (.request (taskOf shipped "PUTFLAG" 4 0 (some (flagOf "cached".toList))))

/-- The exploit asks for the public incident before the flag. -/
def warmer : Client := .exp1 (flagInfo shipped 4 0 (flagOf "cached".toList)) fun request => request

theorem exp1_run (info : AttackInfo) (clock : Nat → Int) (pool : ClientPool) :
    Runs env Quiet pool (visited env Quiet pool (.exp1 info clock)) :=
  visited_run (meets_of_fitting _
    (exp1_calls (fun _ reads => @reads_fitting env Quiet (fun _ _ _ => rfl) _ reads) info clock pool.state))

theorem warmed_up_run : Runs shipped Anything (started shipped) warmedUp := by
  unfold warmedUp
  refine visited_run ?_
  decide +kernel

theorem exp1_prints_shipped :
    ∃ entry ∈ (visited shipped Quiet warmedUp warmer).answered,
      entry.rest = .printed ["FLAG\x7bcached\x7d".toList] := by
  have planted : .putFlag 4 0 (flagOf "cached".toList) ∈ warmedUp.acts := by
    rw [warmedUp, visited, script, serve_put_flag (by decide)]
    exact List.mem_append_right _ List.mem_cons_self
  have run : Runs shipped Quiet warmedUp (visited shipped Quiet warmedUp warmer) := exp1_run _ _ warmedUp
  have allowed : firstDecision shipped (visited shipped Quiet warmedUp warmer).state.mem.objects
      (guestKey shipped)
      (visited shipped Quiet warmedUp warmer).acts = some true := by decide +kernel
  refine ⟨_, List.mem_append_right _ (List.mem_singleton.mpr rfl), ?_⟩
  have outcome := exp1_prints shipped shipped_apart rfl 4 (by decide) (by decide)
    (fun request => request) (by decide)
    (by decide) warmed_up_run planted run _ (List.mem_append_right _ (List.mem_singleton.mpr rfl))
    (Nat.le_refl _) rfl
  rw [if_pos allowed] at outcome
  exact outcome

end KosSim.PolicyForge
