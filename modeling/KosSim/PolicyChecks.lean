import KosSim.PolicyClients

/-!
The checker's workflow against PolicyForge: it passes in any order of calls, whoever else uses the
service, with any of the patches. What it asks for is that nobody writes another flag for its tick.
-/

namespace KosSim.PolicyForge
open Library Library.Base64 Library.Handler
open PolicyDsl (Text CaseMap Rule)

variable (env : Env) (tick : Int) (flag : Int → Text)

/-- No act writes another flag for the tick. -/
def KeepsFlags (_ : State) (act : Act) : Prop :=
  ∀ write ∈ act.flags env, write.1.1 = tick → write.2 = flag write.1.2

instance keepsFlagsDecidable (state : State) (act : Act) : Decidable (KeepsFlags env tick flag state act) :=
  inferInstanceAs (Decidable (∀ write ∈ act.flags env, write.1.1 = tick → write.2 = flag write.1.2))

def Planted (state : State) (v : Int) : Prop := state.mem.flags.get? (tick, v) = some (flag v)

variable {env tick flag}

theorem written_same {key : FlagKey} {value : Text} {writes : List (FlagKey × Text)} {before : Option Text}
    (there : before = some value) (same : ∀ write ∈ writes, write.1 = key → write.2 = value) :
    written key before writes = some value := by
  induction writes generalizing before with
  | nil => exact there
  | cons write rest ih =>
      obtain ⟨here, later⟩ := List.forall_mem_cons.mp same
      refine ih ?_ later
      by_cases hit : write.1 = key
      · exact (if_pos hit).trans (congrArg some (here hit))
      · exact (if_neg hit).trans there

variable (env tick flag) in
/-- The agent while the workflow runs: no object and none of the tick's flags is lost. -/
def watched : Contract (agentUnder env (KeepsFlags env tick flag)) where
  keeps state := Sane env state ∧ ∀ key flag, state.mem.flags.get? key = some flag →
    Backed state.mem key flag
  grows one other := Grown one.mem.objects other.mem.objects ∧ ∀ v, Planted tick flag one v →
    Planted tick flag other v
  ok := Known
  refl state := ⟨grown_refl _, fun _ there => there⟩
  trans first second := ⟨grown_trans first.1 second.1, fun v there => second.2 v (first.2 v there)⟩
  step state act kept met known := by
    obtain ⟨sane, grown, stored⟩ := apply_sane kept.1 met.1 known
    refine ⟨⟨sane, fun key flag found => ?_⟩, grown, fun v there => ?_⟩
    · rw [show (agentUnder env (KeepsFlags env tick _)).apply state act = apply env state act from rfl,
        apply_flags kept.1 known] at found
      rcases written_cases found with new | old
      · exact act_backed stored _ new
      · exact backed_grows grown (kept.2 key flag old)
    · refine (apply_flags kept.1 known (tick, v)).trans (written_same there fun write member key => ?_)
      rw [met.2 write member (by rw [key]), key]
  outside _ _ _ outer _ _ _ same := by
    cases same
    cases outer

abbrev Passes (outcome : Outcome) : Prop := outcome = .verdict true

/-- A request that is answered as wanted, with what is known behind it. -/
theorem expect_passes {request : Request} {check : Answer → Bool} {rest : Script} {state : State}
    (fact : State → Prop)
    (first : (serve env request).Sound (watched env tick flag) (fun answer now => check answer = true ∧
      fact now) state) (later : ∀ now, (watched env tick flag).grows state now → fact now →
      rest.Sound (watched env tick flag) (fun value _ => Passes value) now) :
    (expect env request check rest).Sound (watched env tick flag) (fun value _ => Passes value) state := by
  refine sound_bind first fun answer now grown found => ?_
  rw [if_pos found.1]
  exact later now grown found.2

theorem each_passes {step : Int → Script → Script} (before behind : Int → State → Prop)
    (lastBefore : ∀ v one other, (watched env tick flag).grows one other → before v one → before v other)
    (lastBehind : ∀ v one other, (watched env tick flag).grows one other → behind v one → behind v other)
    (one : ∀ v rest state, before v state →
      (∀ now, (watched env tick flag).grows state now → behind v now →
        rest.Sound (watched env tick flag) (fun value _ => Passes value) now) →
      (step v rest).Sound (watched env tick flag) (fun value _ => Passes value) state)
    {variants : List Int} {rest : Script} {state : State} (start : ∀ v ∈ variants, before v state)
    (later : ∀ now, (watched env tick flag).grows state now → (∀ v ∈ variants, behind v now) →
      rest.Sound (watched env tick flag) (fun value _ => Passes value) now) :
    (each variants step rest).Sound (watched env tick flag) (fun value _ => Passes value) state := by
  induction variants generalizing state with
  | nil =>
      exact later state ((watched env tick flag).refl state) fun _ member => (List.not_mem_nil member).elim
  | cons v others ih =>
      obtain ⟨here, more⟩ := List.forall_mem_cons.mp start
      refine one v (each others step rest) state here fun now grown done =>
        ih (fun other member => ?_) fun last further every => ?_
      · exact lastBefore other state now grown (more other member)
      · exact later last ((watched env tick flag).trans grown further)
          (List.forall_mem_cons.mpr ⟨lastBehind v now last further done, every⟩)

/-! The requests of the workflow. -/

theorem upcase_ascii {text : Text} (upper : ∀ c ∈ text, c.toNat < 128 ∧ c.toUpper = c) :
    env.cases.upcase text = text := by
  induction text with
  | nil => rfl
  | cons c rest ih =>
      obtain ⟨here, later⟩ := List.forall_mem_cons.mp upper
      have tail : rest.flatMap env.cases.upper = rest := ih later
      rw [CaseMap.upcase, List.flatMap_cons, env.cases.upperAscii c here.1, here.2, tail]
      rfl

def methods : List String := ["PUTFLAG", "GETFLAG", "PUTNOISE", "GETNOISE", "HAVOC"]

theorem method_upper {method : String} (listed : method ∈ methods) :
    env.cases.upcase method.toList = method.toList := by
  have every : ∀ method ∈ methods, method.toList.all fun c => decide (c.toNat < 128 ∧ c.toUpper = c) :=
    by decide
  exact upcase_ascii fun c member => of_decide_eq_true (List.all_eq_true.mp (every method listed) c member)

theorem serve_checker (method : String) (v : Int) (text : Option Text) :
    serve env (taskOf env method tick v text) =
      serveTask env ⟨some method.toList, some tick, some tick, some v, text⟩ :=
  if_pos (decide_eq_true rfl)

theorem serve_put_flag {v : Int} {text : Text} (filled : text ≠ []) :
    serve env (taskOf env "PUTFLAG" tick v (some text)) =
      Handler.act (.putFlag tick v text) fun _ =>
      .planted (attackInfo (flagObject env tick v text) v).text := by
  rw [serve_checker]
  unfold serveTask
  dsimp only [Option.getD_some, Option.some_or]
  rw [method_upper (by decide), if_pos rfl, if_neg filled]

theorem info_planted (info : AttackInfo) : (Answer.planted info.text).isPlanted = true := by
  rw [Answer.isPlanted, AttackInfo.text, Json.parse_encode]
  rfl

theorem put_flag_passes (filled : ∀ v, flag v ≠ []) (v : Int) (state : State) :
    (serve env (taskOf env "PUTFLAG" tick v (some (flag v)))).Sound (watched env tick flag)
      (fun answer now => answer.isPlanted = true ∧ Planted tick flag now v) state := by
  rw [serve_put_flag (filled v)]
  exact sound_act fun now _ _ =>
    ⟨known_put now tick v _, fun _ => ⟨info_planted _, (Dict.get_set _ _ _ _).trans (if_pos rfl)⟩⟩

theorem get_flag_passes (v : Int) {state : State} (planted : Planted tick flag state v) :
    (serve env (taskOf env "GETFLAG" tick v (some (flag v)))).Sound (watched env tick flag)
      (fun answer _ => answer.isOk = true ∧ True) state := by
  rw [serve_checker]
  unfold serveTask
  dsimp only [Option.getD_some, Option.some_or]
  rw [method_upper (by decide), if_neg (by decide), if_pos rfl]
  refine sound_ask fun now grown kept => ⟨?_, trivial⟩
  have there := grown.2 v planted
  obtain ⟨id, obj, found, data, className⟩ := kept.2 _ _ there
  have right : getFlag now.mem tick v (flag v) = true := by
    rw [getFlag, Bool.and_eq_true]
    exact ⟨decide_eq_true there, List.any_eq_true.mpr
      ⟨(id, obj), (Dict.mem_entries_iff _ _ _).mpr found, decide_eq_true ⟨data, className⟩⟩⟩
  rw [right]
  rfl

def Noisy (env : Env) (tick v : Int) (state : State) : Prop :=
  state.mem.objects.get? (noiseObject env tick v).id = some (noiseObject env tick v)

theorem put_noise_passes (v : Int) (state : State) :
    (serve env (taskOf env "PUTNOISE" tick v none)).Sound (watched env tick flag)
      (fun answer now => answer.isOk = true ∧ Noisy env tick v now) state := by
  rw [serve_checker]
  unfold serveTask
  dsimp only [Option.getD_some, Option.some_or]
  rw [method_upper (by decide), if_neg (by decide), if_neg (by decide), if_pos rfl]
  exact sound_act fun now _ _ => ⟨known_noise now tick v, fun _ => ⟨rfl, write_stored _ _⟩⟩

theorem get_noise_passes (v : Int) {state : State} (noisy : Noisy env tick v state) :
    (serve env (taskOf env "GETNOISE" tick v none)).Sound (watched env tick flag)
      (fun answer _ => answer.isOk = true ∧ True) state := by
  rw [serve_checker]
  unfold serveTask
  dsimp only [Option.getD_some, Option.some_or]
  rw [method_upper (by decide), if_neg (by decide), if_neg (by decide), if_neg (by decide), if_pos rfl]
  refine sound_ask fun now grown kept => ⟨?_, trivial⟩
  have there := grown.1 _ _ noisy
  have right : getNoise env now.mem tick v = true := by
    rw [getNoise, there]
    rfl
  rw [right]
  rfl

theorem havoc_passes (v : Int) (state : State) :
    (serve env (taskOf env "HAVOC" tick v none)).Sound (watched env tick flag)
      (fun answer _ => answer.isOk = true ∧ True) state := by
  rw [serve_checker]
  unfold serveTask
  dsimp only [Option.getD_some, Option.some_or]
  rw [method_upper (by decide), if_neg (by decide), if_neg (by decide), if_neg (by decide),
    if_neg (by decide), if_pos rfl]
  refine sound_act_bind fun now _ _ =>
    ⟨known_noise now tick v, fun _ => sound_ask fun last _ kept => ⟨?_, trivial⟩⟩
  have some_ := Dict.mem_entries_iff _ _ _ |>.mpr kept.1.held.seed
  have filled : last.mem.objects.entries.isEmpty = false :=
    List.isEmpty_eq_false_iff.mpr (List.ne_nil_of_mem some_)
  rw [filled]
  rfl

theorem objects_passes (state : State) :
    (serve env .objects).Sound (watched env tick flag)
      (fun answer _ => answer.listsPublic = true ∧ True) state := by
  refine sound_ask fun now _ kept => ⟨?_, trivial⟩
  have there : (publicObject, seedObject env) ∈ now.mem.objects.entries :=
    (Dict.mem_entries_iff _ _ _).mpr kept.1.held.seed
  exact List.any_eq_true.mpr
    ⟨(seedObject env).toListed, List.mem_map.mpr ⟨(publicObject, seedObject env), there, rfl⟩,
      decide_eq_true rfl⟩

/-- The public object by the plain rule. -/
theorem eval_public :
    PolicyDsl.eval env.cases (!env.patches.unlessKeyword) "allow public::public-incident".toList =
      .load publicObject := by
  have lower : ∀ c ∈ PolicyDsl.allowPublic ++ publicObject, c.toNat < 128 ∧ c.toLower = c := by
    have each : (PolicyDsl.allowPublic ++ publicObject).all fun c =>
        decide (c.toNat < 128 ∧ c.toLower = c) := by decide
    exact fun c member => of_decide_eq_true (List.all_eq_true.mp each c member)
  refine (PolicyDsl.eval_loads_iff env.cases _ _ publicObject (by decide)).mpr ?_
  refine @PolicyDsl.Loads.plain env.cases _ publicObject ?_
  rw [PolicyDsl.downcase_ascii lower]
  decide

theorem eval_passes {clock : Nat → Int} (fresh : clock 1 ≤ clock 0 + 86400) (state : State) :
    (serve env (.policyEval (some (guestToken env (clock 0)))
      (some "allow public::public-incident".toList) (clock 1))).Sound
      (watched env tick flag) (fun answer _ => answer.isAllow = true ∧ True) state := by
  simp only [serve, verify_guest fresh, Option.getD_some]
  unfold eval
  rw [eval_public]
  refine sound_ask_bind fun now _ kept => ?_
  have shown : (seedObject env).isPublic = true := rfl
  rw [kept.1.held.seed]
  dsimp only
  rw [if_pos shown]
  split <;> exact ⟨rfl, trivial⟩

theorem issue_passes (state : State) :
    (serve env (.shareIssue (some publicSnapshot))).Sound (watched env tick flag)
      (fun answer _ => answer = .shareToken (issueShare env publicSnapshot)) state :=
  issue_sound (fun _ (kept : (watched env tick flag).keeps _) => kept.1.held) state

theorem share_passes (state : State) :
    (serve env (.shareObject (issueShare env publicSnapshot) publicObject)).Sound (watched env tick flag)
      (fun answer _ => answer.showsPublic = true ∧ True) state := by
  have read (first : State) : (readObject publicObject).Sound (watched env tick flag)
      (fun answer _ => answer.showsPublic = true ∧ True) first := by
    refine sound_ask_bind fun now _ kept => ?_
    rw [kept.1.held.seed]
    exact ⟨rfl, trivial⟩
  simp only [serve, serveShare, verify_share]
  split
  · refine sound_ask_bind fun one _ kept => ?_
    rw [name_back, Option.bind_some, String.toList_ofList, kept.1.held.seedSnap]
    have listed : publicObject ∈ (seedSnap env).objects := List.mem_singleton.mpr rfl
    dsimp only
    rw [if_pos listed]
    exact read one
  · exact read state

/-! The workflow. -/

theorem surface_passes {clock : Nat → Int} (fresh : clock 1 ≤ clock 0 + 86400) (state : State) :
    (surface env (guestToken env (clock 0)) clock).Sound (watched env tick flag)
      (fun value _ => Passes value) state := by
  refine expect_passes (fun _ => True) (objects_passes state) fun one _ _ => ?_
  refine expect_passes (fun _ => True) (eval_passes fresh one) fun other _ _ => ?_
  refine sound_bind (issue_passes other) fun answer now _ issued => ?_
  have dotted : '.' ∈ issueShare env publicSnapshot := sign_dot _
  rw [issued]
  dsimp only
  rw [if_pos dotted]
  exact expect_passes (fun _ => True) (share_passes now) fun _ _ _ => rfl

theorem workflow_sound (filled : ∀ v, flag v ≠ []) {clock : Nat → Int}
    (fresh : clock 1 ≤ clock 0 + 86400) (state : State) :
    (workflow env tick flag clock).Sound (watched env tick flag) (fun value _ => Passes value) state := by
  have nothing (v : Int) (one other : State) (_ : (watched env tick flag).grows one other) (_ : True) :
      True := trivial
  have named : (serve env (.service (some env.secret) none)).Sound (watched env tick flag)
      (fun answer _ => answer.namesVariants = true ∧ True) state := by
    have right : authorized env (some env.secret) none = true := decide_eq_true rfl
    simp only [serve, right, if_true]
    exact ⟨rfl, trivial⟩
  refine expect_passes (fun _ => True) named fun first _ _ => ?_
  -- The flags are there from here on, and nothing else of the workflow depends on what came before.
  refine each_passes (fun _ _ => True) (fun v now => Planted tick flag now v) nothing
    (fun v one other grown there => grown.2 v there)
    (fun v rest now _ later => expect_passes (fun last => Planted tick flag last v)
      (put_flag_passes filled v now) fun last grown there => later last grown there)
    (fun _ _ => trivial) fun second _ planted => ?_
  refine each_passes (fun v now => Planted tick flag now v) (fun _ _ => True)
    (fun v one other grown there => grown.2 v there)
    nothing (fun v rest now there later => expect_passes (fun _ => True) (get_flag_passes v there)
      fun last grown _ => later last grown trivial) planted fun third _ _ => ?_
  refine each_passes (fun _ _ => True) (fun _ _ => True) nothing nothing (fun v rest now _ later =>
      expect_passes (fun last => Noisy env tick v last) (put_noise_passes v now) fun one grown noisy =>
        expect_passes (fun _ => True) (get_noise_passes v noisy) fun other more _ =>
          later other ((watched env tick flag).trans grown more) trivial)
    (fun _ _ => trivial) fun fourth _ _ => ?_
  refine each_passes (fun _ _ => True) (fun _ _ => True) nothing nothing (fun v rest now _ later =>
      expect_passes (fun _ => True) (havoc_passes v now) fun last grown _ => later last grown trivial)
    (fun _ _ => trivial) fun fifth _ _ => ?_
  have session : (serve env (.guestSession (clock 0))).Sound (watched env tick flag)
      (fun answer _ => answer = .session (guestToken env (clock 0))) fifth := rfl
  refine sound_bind session fun answer now _ issued => ?_
  have dotted : '.' ∈ guestToken env (clock 0) := sign_dot _
  rw [issued]
  dsimp only
  rw [if_pos dotted]
  exact surface_passes fresh now

theorem started_watched (apart : BootApart env) : (watched env tick flag).keeps (init env none) := by
  refine ⟨(started_sane apart).1, fun key value found => ?_⟩
  exact (started_recorded apart).backed key value found

/-- Whatever others do between its requests, in any order of calls and with any of the patches:
where no other flag is written for its tick, a workflow of the checker that comes to its end has
passed. -/
theorem workflow_passes (env : Env) (apart : BootApart env) (tick : Int) (flag : Int → Text)
    (filled : ∀ v, flag v ≠ []) (clock : Nat → Int) (fresh : clock 1 ≤ clock 0 + 86400)
    (pool : ClientPool) (run : Runs env (KeepsFlags env tick flag) (started env) pool) :
    ∀ entry ∈ pool.answered, entry.request = .checker tick flag clock → entry.rest = .verdict true := by
  have honoured : Honoured (script env) (fun _ _ => True) (watched env tick flag)
      (fun client outcome _ => client = .checker tick flag clock → outcome = .verdict true) 0 := by
    refine ⟨fun _ _ _ _ _ known => known, fun _ client state _ _ _ => ?_⟩
    by_cases same : client = .checker tick flag clock
    · rw [same]
      exact sound_mono (workflow_sound filled fresh state) fun _ _ _ passed _ => passed
    · refine sound_mono (@script_known env _ (watched env tick flag) (fun _ _ known => known)
        (fun _ _ grown => grown.1) client state) ?_
      exact fun _ _ _ _ mine => absurd mine same
  have kept := served_kept honoured (Pool.Kept.start (started_watched apart) _) run
  exact fun entry member => kept.answered entry member (Nat.zero_le _)

/-- A flag for each variant. -/
def variantFlag (v : Int) : Text := flagOpener ++ intChars v ++ [flagCloser]

theorem workflow_passes_shipped :
    ∃ later : ClientPool, Runs shipped (KeepsFlags shipped 3 variantFlag) (started shipped) later ∧
      ∃ entry ∈ later.answered, entry.rest = .verdict true := by
  have filled (v : Int) : variantFlag v ≠ [] := List.append_ne_nil_of_right_ne_nil _ (List.cons_ne_nil _ _)
  have met : (script shipped (.checker 3 variantFlag fun request => request)).Meets
      (agentUnder shipped (KeepsFlags shipped 3 variantFlag)) (init shipped none) := by decide +kernel
  obtain ⟨later, run, entry, answered, -, asked⟩ := client_run _ (started shipped) met
  exact ⟨later, run, entry, answered,
    workflow_passes shipped shipped_apart 3 variantFlag filled _ (by decide) later run entry answered asked⟩

end KosSim.PolicyForge
