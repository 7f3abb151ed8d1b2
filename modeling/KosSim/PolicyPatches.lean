import KosSim.Library.Utf8Cuts
import KosSim.PolicyAttacks

/-!
What the patches of PolicyForge close. Over every run of requests without forged tokens, the private
objects of a class stay hidden exactly where the patches of all the ways to them are in.
-/

namespace KosSim.PolicyForge
open Library Library.Base64 Library.Handler
open PolicyDsl (Text CaseMap Rule)

def Request.tokens : Request → List Text
  | .object _ session _ => session.toList
  | .policyEval session _ _ => session.toList
  | .shareObject token _ => [token]
  | _ => []

def Answer.token : Answer → Option Text
  | .session token => some token
  | .shareToken token => some token
  | _ => none

/-- A token that is accepted has been issued. -/
def Unforged (env : Env) (answered : List (Entry Request Answer)) (request : Request) : Prop :=
  ∀ token ∈ request.tokens, openToken env (some token) ≠ none →
    ∃ entry ∈ answered, entry.rest.token = some token

abbrev RequestPool := Pool State Request Act Answer

abbrev RequestRuns (env : Env) : RequestPool → RequestPool → Prop :=
  Served (serve env) (agentUnder env Anything) (Unforged env)

/-- The answer has the data of a private object of the class. -/
def Shows (answer : Answer) (className : Text) : Prop :=
  ∃ shown ∈ answer.shown, shown.1.isPublic = false ∧ shown.1.className = className

/-- The patches of the ways to a class. -/
def Closed (patches : Patches) (className : Text) : Prop :=
  patches.evalData = true ∧ patches.tenantClaim = true ∧ patches.shareBinding = true ∧
    (className = incident → patches.cacheKey = true)

variable {env : Env}

/-! Guests. -/

theorem guest_grants {obj : Obj} (made : Made env obj) (now : Int) :
    grants (guestSession now) obj = obj.isPublic := by
  have reader : decide (auditor ∈ (guestSession now).groups) = false :=
    decide_eq_false (show auditor ∉ ["reader".toList] by decide)
  rw [grants, reader, Bool.or_false]
  cases made with
  | seed => rfl
  | noise tick payload => rfl
  | flag tick payload flag =>
      have owner : decide ((flagObject env tick payload flag).owner = (guestSession now).user) = false :=
        decide_eq_false (show checker ≠ guest by decide)
      rw [owner, Bool.or_false]

theorem guest_keys (obj : Obj) (one other : Int) :
    cacheKeyOf env (guestSession one) obj = cacheKeyOf env (guestSession other) obj := rfl

theorem made_class {obj : Obj} (made : Made env obj) :
    obj.tenant = env.team ∧ (obj.isPublic = true → obj.className = incident ∨
      obj.className = "sample".toList) ∧
      (obj.isPublic = false → ∃ payload, obj.className = variantClass payload) ∧ ':' ∉ obj.className := by
  have variant (payload : Int) : ':' ∉ variantClass payload := by
    unfold variantClass
    split
    · decide
    split
    · decide
    split <;> decide
  cases made with
  | seed =>
      exact ⟨rfl, fun _ => .inl rfl, fun hidden => (Bool.noConfusion hidden), show ':' ∉ incident by decide⟩
  | noise tick payload =>
      exact ⟨rfl, fun _ => .inr rfl, fun hidden => Bool.noConfusion hidden,
        show ':' ∉ "sample".toList by decide⟩
  | flag tick payload flag =>
      exact ⟨rfl, fun shown => Bool.noConfusion shown, fun _ => ⟨payload, rfl⟩, variant payload⟩

/-- Objects of one class that share a key are one where the key has the id. -/
theorem same_key {one other : Obj} (made : Made env one) (makes : Made env other) {now : Int}
    (same : cacheKeyOf env (guestSession now) one = cacheKeyOf env (guestSession now) other) :
    one.className = other.className ∧ (env.patches.cacheKey = true → one.id = other.id) := by
  obtain ⟨tenant, -, -, free⟩ := made_class made
  obtain ⟨tenant_, -, -, free_⟩ := made_class makes
  unfold cacheKeyOf at same
  dsimp only at same
  rw [tenant, tenant_] at same
  cases patched : env.patches.cacheKey with
  | false =>
      rw [patched, if_neg Bool.false_ne_true, if_neg Bool.false_ne_true] at same
      simp only [List.append_assoc, List.cons_append, List.append_cancel_left_eq, List.cons.injEq,
        true_and] at same
      exact ⟨same, fun wrong => Bool.noConfusion wrong⟩
  | true =>
      rw [patched, if_pos rfl, if_pos rfl] at same
      simp only [List.append_assoc, List.cons_append, List.append_cancel_left_eq, List.cons.injEq,
        true_and] at same
      have left := cut_mark free one.id
      have right := cut_mark free_ other.id
      rw [same, right] at left
      have both := Prod.mk.inj (Option.some.inj left)
      exact ⟨both.1.symm, fun _ => both.2.symm⟩

/-! The safe side. -/

/-- Where a decision under a guest's key is to allow, a public object has the key. -/
def FairCache (env : Env) (state : State) : Prop :=
  ∀ key, state.mem.cache.get? key = some true → ∃ id obj, state.mem.objects.get? id = some obj ∧
    obj.isPublic = true ∧ cacheKeyOf env (guestSession 0) obj = key

theorem objects_refl (state : State) : Grown state.mem.objects state.mem.objects := grown_refl _

theorem objects_trans {one other last : State} (first : Grown one.mem.objects other.mem.objects)
    (second : Grown other.mem.objects last.mem.objects) : Grown one.mem.objects last.mem.objects :=
  grown_trans first second

variable (env) in
/-- The agent is asked for guests alone. -/
def guarded : Contract (agentUnder env Anything) where
  keeps state := Sane env state ∧ FairCache env state
  grows one other := Grown one.mem.objects other.mem.objects
  ok state act := Known state act ∧ ∀ session id, act = .allowed session id →
    ∃ now, session = guestSession now
  refl := objects_refl
  trans := @objects_trans
  step state act kept met fine := by
    obtain ⟨sane, grown, -⟩ := apply_sane kept.1 met.1 fine.1
    refine ⟨⟨sane, fun key cached => ?_⟩, grown⟩
    have now := (apply_cache fine.1 key).symm.trans cached
    cases clears : act.clears with
    | true =>
        rw [clears, if_pos rfl] at now
        cases now
    | false =>
        rw [clears, if_neg Bool.false_ne_true, Option.or_eq_some_iff] at now
        rcases now with old | ⟨-, new⟩
        · obtain ⟨id, obj, found, shown, same⟩ := kept.2 key old
          exact ⟨id, obj, grown id obj found, shown, same⟩
        · cases act with
          | allowed session id =>
              obtain ⟨clock, rfl⟩ := fine.2 session id rfl
              obtain ⟨obj, found, asked⟩ := Option.bind_eq_some_iff.mp new
              split at asked
              · next same =>
                  rw [Option.some.injEq, guest_grants (kept.1.held.made id obj found)] at asked
                  exact ⟨id, obj, grown id obj found, asked, same⟩
              · cases asked
          | putFlag tick payload flag => cases new
          | putNoise tick payload => cases new
          | init => cases new
  outside _ act _ outer _ := by
    have boot : act = .init := outer
    rw [boot]
    exact ⟨fun _ _ same => (by cases same), fun _ _ same => (by cases same)⟩

/-- A guest is not let to a private object, where the key has the id or no public object has the class. -/
theorem hidden_denied {state : State} (kept : (guarded env).keeps state) {id : Text} {obj : Obj}
    (found : state.mem.objects.get? id = some obj) (hidden : obj.isPublic = false)
    (closed : obj.className = incident → env.patches.cacheKey = true) (now : Int) :
    allowed? env state.mem (guestSession now) id = some false := by
  obtain ⟨sane, fair⟩ := kept
  have made := sane.held.made id obj found
  have refused : grants (guestSession now) obj = false := (guest_grants made now).trans hidden
  rw [allowed?, found, Option.map_some, refused]
  cases cached : state.mem.cache.get? (cacheKeyOf env (guestSession now) obj) with
  | none => rfl
  | some allowed =>
      cases allowed with
      | false => rfl
      | true =>
          obtain ⟨at_, other, there, shown, key⟩ := fair _ cached
          have makes := sane.held.made at_ other there
          obtain ⟨classes, ids⟩ := same_key makes made (key.trans (guest_keys obj now 0))
          obtain ⟨payload, variant⟩ := (made_class made).2.2.1 hidden
          have sample : variantClass payload ≠ "sample".toList := by
            unfold variantClass
            split
            · decide
            split
            · decide
            split <;> decide
          rcases (made_class makes).2.1 shown with inIncident | inSample
          · have same := ids (closed (classes.symm.trans inIncident))
            rw [sane.held.ids _ _ there, sane.held.ids _ _ found] at same
            rw [same, found, Option.some.injEq] at there
            rw [← there, hidden] at shown
            cases shown
          · exact absurd (variant.symm.trans (classes.symm.trans inSample)) sample

/-! Tokens. -/

def Issued (env : Env) (token : Text) : Prop :=
  (∃ now, token = guestToken env now) ∨ token = issueShare env publicSnapshot

theorem issued_session {token : Text} (issued : Issued env token) {now : Int} {claims : Session}
    (verified : verifySession env (some token) now = some claims) :
    ∃ clock, claims = guestSession clock := by
  rcases issued with ⟨clock, rfl⟩ | rfl
  · refine ⟨clock, ?_⟩
    rw [verifySession, guest_token, open_sign, Option.bind_some, env.jason.readBack] at verified
    dsimp only at verified
    split at verified
    · exact (Option.some.inj verified).symm
    · cases verified
  · have name : openToken env (some (issueShare env publicSnapshot)) = some (utf8 "public-snap") :=
      open_sign _
    rw [verifySession, name, Option.bind_some, env.jason.noName] at verified
    cases verified

theorem issued_share {token : Text} (issued : Issued env token) {snap : Bytes}
    (verified : verifyShare env token = some snap) :
    (∃ session, snap = env.jason.encode session) ∨ snap = bytesOf publicSnapshot := by
  rcases issued with ⟨clock, rfl⟩ | rfl
  · exact .inl ⟨guestSession clock, open_signed verified (guest_token clock)⟩
  · exact .inr (open_signed verified rfl)

/-- No session is the name of a snapshot. -/
theorem session_unnamed {mem : Stored} (held : Held env mem) (session : Session) {name : String}
    {snap : Snap} (named : String.fromUTF8? (env.jason.encode session).toByteArray = some name) :
    mem.snapshots.get? name.toList ≠ some snap := by
  intro found
  have same := from_utf8_iff.mp named
  have opens := env.jason.opens session
  rw [← same] at opens
  have sealed_ := held.snapshots _ _ found
  generalize at_ : name.toList = text at sealed_
  have whole : name = String.ofList text := by rw [← at_, String.ofList_toList]
  rw [whole] at same opens
  cases sealed_ with
  | seed =>
      have back := env.jason.readBack session
      rw [← same] at back
      have none_ : env.jason.decode (utf8 (String.ofList publicSnapshot)) = none := env.jason.noName
      rw [none_] at back
      cases back
  | flag obj hidden stored =>
      have digits : ∀ c ∈ obj.snapshot, c ∈ hexDigits := by
        cases held.made _ obj stored with
        | seed => exact Bool.noConfusion hidden
        | noise tick payload => exact Bool.noConfusion hidden
        | flag tick payload flag => exact hash_digits env _
      have table : hexDigits.all fun c => decide (c.val.toNat ≤ 0x7f ∧
          UInt8.ofNat c.val.toNat ≠ Json.openBrace) := by decide
      have digit (c : Char) (member : c ∈ obj.snapshot) :
          c.val.toNat ≤ 0x7f ∧ UInt8.ofNat c.val.toNat ≠ Json.openBrace :=
        of_decide_eq_true (List.all_eq_true.mp table c (digits c member))
      rw [utf8_ascii fun c member => (digit c member).1, List.head?_map, Option.map_eq_some_iff] at opens
      obtain ⟨c, first, brace⟩ := opens
      exact (digit c (List.mem_of_mem_head? first)).2 brace

/-! Every request on the safe side. -/

/-- What an answer may be. -/
structure Discreet (env : Env) (className : Text) (answer : Answer) : Prop where
  hides : ¬Shows answer className
  issued : ∀ token, answer.token = some token → Issued env token

theorem unshown {className : Text} {answer : Answer} (nothing : answer.shown = none) :
    ¬Shows answer className := by
  rintro ⟨parts, shown, -⟩
  rw [nothing] at shown
  exact Option.not_mem_none _ shown

theorem plain_discreet {className : Text} {answer : Answer} (plain : answer.Plain) :
    Discreet env className answer := by
  cases answer with
  | allow obj data =>
      cases data with
      | some text => exact plain.elim
      | none => exact ⟨unshown rfl, fun _ same => by cases same⟩
  | object obj => exact plain.elim
  | session token => exact plain.elim
  | shareToken token => exact plain.elim
  | counts _ _ _ | done _ | internalError _ | planted _ | catalog _ | deny _ | simulated | error _ _ | page =>
      exact ⟨unshown rfl, fun _ same => by cases same⟩

theorem object_discreet {className : Text} {obj : Obj}
    (fine : obj.isPublic = false → obj.className ≠ className) :
    Discreet env className (.object obj) := by
  refine ⟨?_, fun _ same => by cases same⟩
  rintro ⟨shown, same, hidden, class_⟩
  cases same
  exact fine hidden class_

theorem public_discreet {className : Text} {obj : Obj} (shown : obj.isPublic = true) :
    Discreet env className (.object obj) :=
  object_discreet fun hidden => by rw [shown] at hidden; cases hidden

theorem serve_discreet {className : Text} (closed : Closed env.patches className)
    {request : Request}
    (honest : ∀ token ∈ request.tokens, openToken env (some token) ≠ none → Issued env token)
    (state : State) :
    (serve env request).Sound (guarded env) (fun answer _ => Discreet env className answer) state := by
  obtain ⟨evalData, tenantClaim, shareBinding, cacheKey⟩ := closed
  have plain (value : Answer) (fine : value.Plain) : Discreet env className value := plain_discreet fine
  have guests (now : Int) : Discreet env className (.session (guestToken env now)) := by
    refine ⟨unshown rfl, fun token same => .inl ⟨now, ?_⟩⟩
    exact (Option.some.inj same).symm
  have sessions {session : Option Text} {now : Int} {claims : Session}
      (listed : ∀ token ∈ session, token ∈ request.tokens)
      (verified : verifySession env session now = some claims) : ∃ clock, claims = guestSession clock := by
    cases session with
    | none => cases verified
    | some token =>
        refine issued_session (honest token (listed token rfl) fun none => ?_) verified
        rw [verifySession, none] at verified
        cases verified
  cases request with
  | service one other =>
      simp only [serve]
      split
      · exact plain _ trivial
      · exact plain _ trivial
  | task one other body =>
      simp only [serve]
      split
      · apply serve_task_sound
        · exact plain
        · exact fun now tick payload flag _ =>
            ⟨known_put now tick payload flag, fun _ _ same => by cases same⟩
        · exact fun now tick payload _ => ⟨known_noise now tick payload, fun _ _ same => by cases same⟩
      · exact plain _ trivial
  | rpc method expr now =>
      simp only [serve]
      split
      · exact guests now
      split
      · apply eval_sound plain
        exact fun _ _ _ _ _ _ off => by rw [evalData] at off; cases off
      split
      · exact list_objects_sound plain state
      split
      · exact plain _ trivial
      · exact plain _ trivial
  | guestSession now => exact guests now
  | objects => exact list_objects_sound plain state
  | object id session clock =>
      refine serve_object_sound plain (fun claims one other obj verified kept found grown later => ?_) state
      obtain ⟨now, rfl⟩ := sessions (fun token member => Option.mem_toList.mpr member) verified
      refine ⟨⟨known_found found grown _, fun _ _ same => ⟨now, by cases same; rfl⟩⟩, fun granted => ?_⟩
      refine object_discreet fun hidden class_ => ?_
      rw [hidden_denied later (grown id obj found) hidden
        (fun inIncident => cacheKey (class_.symm.trans inIncident)) now] at granted
      cases granted
  | policyEval session expr clock =>
      simp only [serve]
      cases verifySession env session clock with
      | none => exact plain _ trivial
      | some claims =>
          apply eval_sound plain
          exact fun _ _ _ _ _ _ off => by rw [evalData] at off; cases off
  | snapshotObject snap id tenant =>
      apply read_snapshot_sound plain
      intro one other snapshot obj _ _ _ _ _ _ allowed
      rw [tenantClaim, Bool.not_true, Bool.false_and, Bool.false_or] at allowed
      exact public_discreet allowed
  | shareIssue snap =>
      refine serve_issue_sound plain (fun one snapshot kept found all => ?_) state
      refine ⟨unshown rfl, fun token same => .inr ?_⟩
      -- Every other snapshot has a private object in it.
      have sealed_ := kept.1.held.snapshots _ _ found
      generalize snap.getD [] = name at sealed_ same
      cases sealed_ with
      | seed => exact (Option.some.inj same).symm
      | flag obj hidden stored =>
          obtain ⟨other, there, grown, -, found_, shown⟩ := all obj.id (List.mem_singleton.mpr rfl)
          rw [grown _ _ stored, Option.some.injEq] at found_
          rw [← found_, hidden] at shown
          cases shown
  | shareObject token id =>
      refine serve_share_sound plain (fun snap one obj verified kept found bound => ?_) state
      obtain ⟨other, name, snapshot, before, grown, named, there, listed⟩ := bound shareBinding
      have issued := honest token (List.mem_singleton.mpr rfl) (by
        intro none
        rw [verifyShare, none] at verified
        cases verified)
      rcases issued_share issued verified with ⟨session, rfl⟩ | rfl
      · exact absurd there (session_unnamed before.1.held session named)
      · rw [name_back, Option.some.injEq] at named
        rw [← named, String.toList_ofList, before.1.held.seedSnap, Option.some.injEq] at there
        rw [← there] at listed
        rw [List.mem_singleton.mp listed, kept.1.held.seed, Option.some.injEq] at found
        rw [← found]
        exact public_discreet rfl
  | page => exact plain _ trivial

theorem private_kept (apart : BootApart env) {className : Text}
    (closed : Closed env.patches className) {pool : RequestPool}
    (run : RequestRuns env (started env) pool) :
    ∀ entry ∈ pool.answered, ¬Shows entry.rest className := by
  have honoured : Honoured (serve env) (Unforged env) (guarded env)
      (fun _ answer _ => Discreet env className answer) 0 := by
    refine ⟨fun _ _ _ _ _ known => known, fun answered request state known honest _ => ?_⟩
    refine serve_discreet closed (fun token member opened => ?_) state
    obtain ⟨entry, there, same⟩ := honest token member opened
    exact (known entry there (Nat.zero_le _)).issued token same
  have fair : FairCache env (init env none) := fun key cached => by
    rw [boot_cache] at cached
    cases cached
  have start : (guarded env).keeps (init env none) := ⟨(started_sane apart).1, fair⟩
  have kept := served_kept honoured (Pool.Kept.start start _) run
  exact fun entry member => (kept.answered entry member (Nat.zero_le _)).hides

/-! The other side: requests one after the other, with nothing between their calls. -/

theorem alone_run (pool : RequestPool) (request : Request) (reads : request.Reads)
    (honest : Unforged env pool.answered request) :
    ∃ later : RequestPool, RequestRuns env pool later ∧
      later.state = ((serve env request).alone (agentUnder env Anything) pool.state).2.1 ∧
      later.answered = pool.answered ++
        [⟨pool.arrivals, request, ((serve env request).alone (agentUnder env Anything) pool.state).1⟩] :=
  ⟨_, served_alone pool request honest
    (meets_of_fitting _ (reads_fitting (fun _ _ _ => trivial) reads pool.state)), rfl, rfl⟩

theorem untokened {answered : List (Entry Request Answer)} {request : Request}
    (none : request.tokens = []) :
    Unforged env answered request :=
  fun token member => by rw [none] at member; exact (List.not_mem_nil member).elim

theorem answered_token {answered : List (Entry Request Answer)} {request : Request} {token : Text}
    (one : request.tokens = [token]) (entry : Entry Request Answer) (there : entry ∈ answered)
    (issued : entry.rest.token = some token) : Unforged env answered request := by
  intro other member _
  rw [one] at member
  exact ⟨entry, there, by rw [issued, List.mem_singleton.mp member]⟩

/-- Each class has a flag from the start on. -/
theorem class_planted (env : Env) (payload : Int) : ∃ obj ∈ Act.objects env .init, obj.isPublic = false ∧
    obj.className = variantClass payload ∧ obj.tenant = env.team ∧ ∀ c ∈ obj.id, c ∈ hexDigits := by
  have listed (flag : Int × Text) (member : flag ∈ bootFlags env)
      (same : variantClass flag.1 = variantClass payload) :
      ∃ obj ∈ Act.objects env .init, obj.isPublic = false ∧ obj.className = variantClass payload ∧
        obj.tenant = env.team ∧ ∀ c ∈ obj.id, c ∈ hexDigits :=
    ⟨_, List.mem_map_of_mem member, rfl, same, rfl, hash_digits env _⟩
  by_cases second : payload = 1
  · exact listed (1, _) (List.mem_cons_of_mem _ List.mem_cons_self) (by rw [second])
  by_cases third : payload = 2
  · exact listed (2, _) (List.mem_cons_of_mem _ (List.mem_cons_of_mem _ List.mem_cons_self)) (by rw [third])
  · refine listed (0, _) List.mem_cons_self ?_
    unfold variantClass
    rw [if_neg second, if_neg third, if_pos rfl, ite_self]

theorem issue_alone {state : State} (held : Held env state.mem) :
    ((serve env (.shareIssue (some publicSnapshot))).alone (agentUnder env Anything) state).1 =
        .shareToken (issueShare env publicSnapshot) ∧
      ((serve env (.shareIssue (some publicSnapshot))).alone (agentUnder env Anything) state).2.1 =
        state := by
  have all (next : Bool → Program) :
      (allPublic [publicObject] >>= next).alone (agentUnder env Anything) state =
      (next true).alone (agentUnder env Anything) state := by
    have public_ : (state.mem.objects.get? publicObject).any (fun obj => obj.isPublic) = true := by
      rw [held.seed]
      rfl
    refine (alone_ask_bind (agentUnder env Anything) _ _ state).trans ?_
    dsimp only
    rw [public_]
    rfl
  simp only [serve, Option.getD_some]
  rw [serveIssue, alone_ask_bind, held.seedSnap]
  dsimp only [seedSnap]
  rw [all]
  exact ⟨rfl, rfl⟩

section Ways
variable {obj : Obj} {state : State} (stored : state.mem.objects.get? obj.id = some obj)
include stored

theorem eval_alone (digits : ∀ c ∈ obj.id, c ∈ hexDigits) (open_ : env.patches.evalData = false) :
    ((serve env (.rpc "policy.eval".toList (some (PolicyDsl.allowPublic ++ obj.id)) 0)).alone
      (agentUnder env Anything) state).1 = .allow obj.toListed (some obj.data) := by
  have plain : ' ' ∉ obj.id := fun blank => absurd (digits ' ' blank) (by decide)
  have ascii : ∀ c ∈ PolicyDsl.allowPublic ++ obj.id, (c.toNat < 128 ∧ c.toLower = c) ∧ c ≠ 'r' := by
    have front : PolicyDsl.allowPublic.all fun c =>
        decide ((c.toNat < 128 ∧ c.toLower = c) ∧ c ≠ 'r') := by decide
    have table : hexDigits.all fun c => decide ((c.toNat < 128 ∧ c.toLower = c) ∧ c ≠ 'r') := by decide
    intro c member
    rcases List.mem_append.mp member with there | digit
    · exact of_decide_eq_true (List.all_eq_true.mp front c there)
    · exact of_decide_eq_true (List.all_eq_true.mp table c (digits c digit))
  have ruled : PolicyDsl.eval env.cases (!env.patches.unlessKeyword)
      (PolicyDsl.allowPublic ++ obj.id) = .load obj.id := by
    refine (PolicyDsl.eval_loads_iff env.cases _ _ _ plain).mpr (.plain fun hidden => ?_)
    rw [PolicyDsl.downcase_ascii fun c member => (ascii c member).1] at hidden
    exact (ascii 'r' (hidden.subset (by decide))).2 rfl
  have guests : "policy.eval".toList ≠ "session.guest".toList := by decide
  simp only [serve]
  rw [if_neg guests, if_pos trivial, Option.getD_some]
  unfold eval
  rw [ruled]
  dsimp only
  rw [load, alone_ask_bind, stored]
  dsimp only
  rw [open_]
  rfl

theorem snapshot_alone
    (sealed_ : state.mem.snapshots.get? obj.snapshot = some ⟨obj.snapshot, env.team, [obj.id]⟩)
    (open_ : env.patches.tenantClaim = false) :
    ((serve env (.snapshotObject obj.snapshot obj.id (some "public".toList))).alone
      (agentUnder env Anything) state).1 = .object obj := by
  simp only [serve]
  rw [readSnapshot, alone_ask_bind, sealed_]
  dsimp only
  rw [if_pos (List.mem_singleton.mpr rfl), alone_ask_bind, stored]
  dsimp only
  rw [open_]
  rfl

theorem share_alone (open_ : env.patches.shareBinding = false) :
    ((serve env (.shareObject (issueShare env publicSnapshot) obj.id)).alone
      (agentUnder env Anything) state).1 = .object obj := by
  simp only [serve, serveShare, verify_share, open_, Bool.false_eq_true, if_false]
  rw [readObject, alone_ask_bind, stored]
  rfl

theorem object_alone {token : Text} {clock : Int} {claims : Session}
    (verified : verifySession env (some token) clock = some claims) :
    ((serve env (.object obj.id (some token) clock)).alone (agentUnder env Anything) state).1 =
        (if (state.mem.cache.get? (cacheKeyOf env claims obj)).getD (grants claims obj) then .object
          obj else failed 403 "denied") ∧
      ((serve env (.object obj.id (some token) clock)).alone (agentUnder env Anything) state).2.1 =
        apply env state (.allowed claims obj.id) := by
  have made : allowed? env state.mem claims obj.id =
      some ((state.mem.cache.get? (cacheKeyOf env claims obj)).getD (grants claims obj)) := by
    rw [allowed?, stored]
    rfl
  simp only [serve, serveObject, verified]
  rw [alone_ask_bind, stored]
  dsimp only
  refine ⟨(alone_act_bind (agentUnder env Anything) _ _ _ state).1.trans ?_,
    (alone_act_bind (agentUnder env Anything) _ _ _ state).2.trans ?_⟩
  · rw [made]
    cases (state.mem.cache.get? (cacheKeyOf env claims obj)).getD (grants claims obj) <;> rfl
  · rw [made]
    cases (state.mem.cache.get? (cacheKeyOf env claims obj)).getD (grants claims obj) <;> rfl

end Ways

/-- A run whose last answer has the data of an object. -/
theorem shown_run {pool : RequestPool} {obj : Obj} (hidden : obj.isPublic = false)
    (run : RequestRuns env (started env) pool) (request : Request) (reads : request.Reads)
    (honest : Unforged env pool.answered request)
    (shown : ((serve env request).alone (agentUnder env Anything) pool.state).1.shown = some
      (obj.toListed, obj.data)) :
    ∃ pool, RequestRuns env (started env) pool ∧ ∃ entry ∈ pool.answered,
      Shows entry.rest obj.className := by
  obtain ⟨later, more, -, answered⟩ := alone_run pool request reads honest
  refine ⟨later, run.then more, ⟨pool.arrivals, request, _⟩, ?_, (obj.toListed, obj.data), shown,
    hidden, rfl⟩
  rw [answered]
  exact List.mem_append_right _ (List.mem_singleton.mpr rfl)

/-- The cache: a guest reads the public incident first. -/
theorem cache_open (apart : BootApart env) (off : env.patches.cacheKey = false) {obj : Obj}
    (stored : (init env none).mem.objects.get? obj.id = some obj) (hidden : obj.isPublic = false)
    (tenant : obj.tenant = env.team) (inIncident : obj.className = incident) :
    ∃ pool, RequestRuns env (started env) pool ∧ ∃ entry ∈ pool.answered,
      Shows entry.rest obj.className := by
  have verified : verifySession env (some (guestToken env 0)) 0 = some (guestSession 0) :=
    verify_guest (by decide)
  obtain ⟨one, first, state, answered⟩ := alone_run (started env) (.guestSession 0) trivial (untokened rfl)
  have same : one.state = init env none := state
  have sane : Sane env one.state := same ▸ (started_sane apart).1
  have issued : (⟨0, .guestSession 0, .session (guestToken env 0)⟩ : Entry Request Answer) ∈
      one.answered := by
    rw [answered]
    exact List.mem_append_right _ (List.mem_singleton.mpr rfl)
  obtain ⟨other, second, after, answered_⟩ :=
    alone_run one (.object publicObject (some (guestToken env 0)) 0) trivial
      (answered_token rfl _ issued rfl)
  have seed : one.state.mem.objects.get? (seedObject env).id = some (seedObject env) := sane.held.seed
  have known := known_found seed (grown_refl _) (guestSession 0)
  have asked : other.state = apply env one.state (.allowed (guestSession 0) (seedObject env).id) :=
    after.trans (object_alone seed verified).2
  have cached : other.state.mem.cache.get? (guestKey env) = some true := by
    have key : cacheKeyOf env (guestSession 0) (seedObject env) = guestKey env :=
      guest_key (seedObject env) off rfl rfl 0
    rw [asked, apply_cache known, Act.decides, seed, Option.bind_some, if_pos key, same, boot_cache]
    rfl
  have there : other.state.mem.objects.get? obj.id = some obj := by
    rw [asked]
    exact (apply_sane sane (fun _ member => (List.not_mem_nil member).elim) known).2.1 _ _ (same ▸ stored)
  have listed : (⟨0, .guestSession 0, .session (guestToken env 0)⟩ : Entry Request Answer) ∈
      other.answered := by
    rw [answered_]
    exact List.mem_append_left _ issued
  refine shown_run hidden (first.then second) (.object obj.id (some (guestToken env 0)) 0) trivial
    (answered_token rfl _ listed rfl) ?_
  rw [(object_alone there verified).1, guest_key obj off tenant inIncident 0, cached]
  rfl

/-- The share token of the public snapshot. -/
theorem share_open (apart : BootApart env) (off : env.patches.shareBinding = false) {obj : Obj}
    (stored : (init env none).mem.objects.get? obj.id = some obj) (hidden : obj.isPublic = false) :
    ∃ pool, RequestRuns env (started env) pool ∧ ∃ entry ∈ pool.answered,
      Shows entry.rest obj.className := by
  obtain ⟨one, first, state, answered⟩ :=
    alone_run (started env) (.shareIssue (some publicSnapshot)) trivial (untokened rfl)
  obtain ⟨token, after⟩ := issue_alone (started_sane apart).1.held
  have same : one.state = init env none := state.trans after
  have issued :
      (⟨0, .shareIssue (some publicSnapshot), .shareToken (issueShare env publicSnapshot)⟩ : Entry
        Request Answer) ∈ one.answered := by
    rw [answered, ← token]
    exact List.mem_append_right _ (List.mem_singleton.mpr rfl)
  refine shown_run hidden first (.shareObject (issueShare env publicSnapshot) obj.id) trivial
    (answered_token rfl _ issued rfl) ?_
  rw [share_alone (same ▸ stored) off]
  rfl

/-- Where a patch is missing, some run shows a private object of the class. -/
theorem way_open (apart : BootApart env) (alone_ : BootSealed env) {payload : Int}
    (open_ : ¬Closed env.patches (variantClass payload)) :
    ∃ pool, RequestRuns env (started env) pool ∧
      ∃ entry ∈ pool.answered, Shows entry.rest (variantClass payload) := by
  obtain ⟨obj, member, hidden, class_, tenant, digits⟩ := class_planted env payload
  have stored := (started_sane apart).2 obj member
  have start : RequestRuns env (started env) (started env) := Steps.refl _
  rw [← class_] at open_ ⊢
  by_cases evalData : env.patches.evalData = true
  · by_cases tenantClaim : env.patches.tenantClaim = true
    · by_cases shareBinding : env.patches.shareBinding = true
      · by_cases inIncident : obj.className = incident
        · refine cache_open apart (Bool.eq_false_of_not_eq_true fun cacheKey => open_ ?_) stored hidden
              tenant inIncident
          exact ⟨evalData, tenantClaim, shareBinding, fun _ => cacheKey⟩
        · exact absurd ⟨evalData, tenantClaim, shareBinding, fun same => absurd same inIncident⟩ open_
      · exact share_open apart (Bool.eq_false_of_not_eq_true shareBinding) stored hidden
    · have shown := snapshot_alone stored (started_snapshots alone_ obj member)
          (Bool.eq_false_of_not_eq_true tenantClaim)
      exact shown_run hidden start (.snapshotObject obj.snapshot obj.id (some "public".toList)) trivial
        (untokened rfl)
        (congrArg Answer.shown shown)
  · have shown := eval_alone stored digits (Bool.eq_false_of_not_eq_true evalData)
    exact shown_run hidden start (.rpc "policy.eval".toList (some (PolicyDsl.allowPublic ++ obj.id)) 0)
      trivial (untokened rfl)
      (congrArg Answer.shown shown)

/-- The private objects of a variant's class stay hidden, in every run of requests without forged
tokens and whatever is planted in it, exactly where the patches of the evaluation, the tenant and
the share token are in, and for incidents that of the cache. -/
theorem hidden_iff_patched (env : Env) (apart : BootApart env) (alone_ : BootSealed env)
    (payload : Int) :
    (∀ pool, RequestRuns env (started env) pool → ∀ entry ∈ pool.answered,
      ¬Shows entry.rest (variantClass payload)) ↔ Closed env.patches (variantClass payload) := by
  constructor
  · intro hides
    by_contra open_
    obtain ⟨pool, run, entry, member, shown⟩ := way_open apart alone_ open_
    exact hides pool run entry member shown
  · exact fun closed pool run => private_kept apart closed run

/-- All patches but the one of the cache. -/
def uncached : Env := { shipped with patches := ⟨false, true, true, true, true⟩ }

theorem uncached_hides :
    (∀ pool, RequestRuns uncached (started uncached) pool →
      ∀ entry ∈ pool.answered, ¬Shows entry.rest ledgerShare) ∧
      ¬∀ pool, RequestRuns uncached (started uncached) pool →
      ∀ entry ∈ pool.answered, ¬Shows entry.rest incident := by
  have apart : BootApart uncached := boot_distinct (by decide +kernel)
  have alone_ : BootSealed uncached := fun _ here _ there same =>
    List.inj_on_of_nodup_map (show ((Act.objects uncached .init).map fun obj => obj.snapshot).Nodup
      by decide +kernel) there here same
  constructor
  · exact (hidden_iff_patched uncached apart alone_ 1).mpr ⟨rfl, rfl, rfl,
      fun same => absurd same (by decide)⟩
  · exact fun hides => Bool.noConfusion (((hidden_iff_patched uncached apart alone_ 0).mp hides).2.2.2 rfl)

end KosSim.PolicyForge
