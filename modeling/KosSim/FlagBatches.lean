import KosSim.Library.Folds
import KosSim.SubmitSessions

/-!
One call of submit_flags while the game runs. Every non-blank entry gets one
result, in order, or the whole batch is lost. A pass raises on three entries: one
with a NUL character, one that the unique index has no room for, and an
undecodable one whose round, the current tick's, is not in flag_rounds yet: the
rotator adds it some time after the tick has opened.
-/

namespace KosSim.FlagBatches
open Library Schema FlagSubmit FlagCrypto Platform SubmitSessions

/-- The entries that the loop does not skip. -/
def nonBlank (flags : List Text) : List Text := (flags.map strip).filter fun flag => flag ≠ []

theorem non_blank_cons (flag : Text) (rest : List Text) :
    nonBlank (flag :: rest) = nonBlank [flag] ++ nonBlank rest := by
  simp only [nonBlank, List.map_cons, List.map_nil, List.filter_cons, List.filter_nil]
  split <;> rfl

theorem mem_non_blank {flags : List Text} {flag : Text} (member : flag ∈ flags) (shown : strip flag ≠ []) :
    strip flag ∈ nonBlank flags :=
  List.mem_filter.mpr ⟨List.mem_map.mpr ⟨flag, member, rfl⟩, by simpa using shown⟩

section Batch
variable {env : Settings} {db : Db} {busy : Int × Int → Bool} {context : Context}

theorem process_flag_results {progress next : Progress} {flag : Text}
    (done : processFlag env db busy context progress flag = .ok next) :
    next.resultRows.map (·.flag) = progress.resultRows.map (·.flag) ++ nonBlank [flag] := by
  unfold processFlag at done
  dsimp only at done
  split at done
  · next blank =>
    cases done
    simp [nonBlank, blank]
  next shown =>
  have one : nonBlank [flag] = [strip flag] := by simp [nonBlank, shown]
  rw [one]
  split at done
  · cases done
  split at done
  · cases done
    simp [resultRow]
  split at done
  · unfold processInvalid at done
    dsimp only at done
    split at done
    · cases done
    · cases done
      simp [resultRow]
  · unfold processDecoded at done
    dsimp only at done
    split at done
    · cases done
    · cases done
      simp [resultRow]

/-- One result for each non-blank entry, in order. -/
theorem batch_results (flags : List Text) {start last : Progress}
    (done : flags.foldlM (processFlag env db busy context) start = .ok last) :
    last.resultRows.map (·.flag) = start.resultRows.map (·.flag) ++ nonBlank flags := by
  induction flags generalizing start with
  | nil =>
      rw [← Except.ok.inj done]
      exact (List.append_nil _).symm
  | cons flag rest ih =>
      rw [List.foldlM_cons] at done
      cases first : processFlag env db busy context start flag with
      | error error => rw [first] at done; cases done
      | ok middle =>
          rw [first] at done
          rw [ih done, process_flag_results first, non_blank_cons flag rest, List.append_assoc]

theorem round_of_tick_known (db : Db) (tick : Int) :
    nullOr db.flagRounds.contains ((db.roundOfTick tick).map (·.1)) = true := by
  cases found : db.roundOfTick tick with
  | none => rfl
  | some entry =>
      refine (Dict.contains_eq_some _ _).mpr ⟨entry.2, ?_⟩
      exact (Dict.mem_entries_iff db.flagRounds entry.1 entry.2).mp (List.mem_of_find?_eq_some found)

theorem null_or_map {α : Type} (dict : Dict Int α) (key : Int) :
    nullOr dict.contains ((dict.get? key).map fun _ => key) = true := by
  cases found : dict.get? key with
  | none => rfl
  | some row => exact (Dict.contains_eq_some _ _).mpr ⟨row, found⟩

/-- A decoded flag is always stored: it is short, and its round is looked up in flag_rounds. -/
theorem decoded_total (progress : Progress) (flag : Text) (info : FlagInfo)
    (teams : context.teamMeta = db.teams) (services : context.serviceMeta = db.services)
    (known : db.teams.contains context.submitterId = true)
    (fresh : submitted (db.submissions ++ progress.pending) context.submitterId flag = false)
    (fits : env.indexFits flag = true) :
    ∃ next, processDecoded env db busy context progress flag info = .ok next := by
  unfold processDecoded
  simp only [insertSubmission, submissionRefs, fresh, fits, teams, services, known, null_or_map,
    round_of_tick_known, Bool.and_self, Bool.false_eq_true, Bool.true_eq_false, ↓reduceIte]
  exact ⟨_, rfl⟩

theorem invalid_ok_iff (progress : Progress) (flag : Text)
    (known : db.teams.contains context.submitterId = true)
    (fresh : submitted (db.submissions ++ progress.pending) context.submitterId flag = false) :
    (∃ next, processInvalid env db context progress flag = .ok next) ↔
      env.indexFits flag = true ∧ db.flagRounds.contains context.currentRoundId = true := by
  unfold processInvalid
  simp only [insertSubmission, submissionRefs, fresh, known, nullOr, Bool.and_true, Bool.true_and,
    Bool.false_eq_true, ↓reduceIte]
  cases fits : env.indexFits flag with
  | false =>
      constructor
      · rintro ⟨next, done⟩
        cases done
      · intro never
        cases never.1
  | true =>
      cases db.flagRounds.contains context.currentRoundId with
      | true => exact ⟨fun _ => ⟨rfl, rfl⟩, fun _ => ⟨_, rfl⟩⟩
      | false =>
          constructor
          · rintro ⟨next, done⟩
            cases done
          · intro never
            cases never.2

/-- An entry on which no pass of the team raises: it has no NUL, and unless it was
stored before, the index has room for it and its round is known. -/
def storable (env : Settings) (db : Db) (teamId roundId : Int) (flag : Text) : Prop :=
  hasNul flag = false ∧
    (submitted db.submissions teamId flag = true ∨
      env.indexFits flag = true ∧ (decodeFlag env flag ≠ none ∨ db.flagRounds.contains roundId = true))

instance (env : Settings) (db : Db) (teamId roundId : Int) (flag : Text) :
    Decidable (storable env db teamId roundId flag) :=
  inferInstanceAs (Decidable (_ ∧ _))

theorem storable_of_decoded {teamId roundId : Int} {flag : Text} {info : FlagInfo}
    (decoded : decodeFlag env flag = some info) : storable env db teamId roundId flag := by
  obtain ⟨plain, fits⟩ := decoded_plain decoded
  exact ⟨plain, Or.inr ⟨fits, Or.inl (by rw [decoded]; exact Option.some_ne_none info)⟩⟩

/-- On storable entries every pass of the loop succeeds. -/
theorem process_flag_total (progress : Progress) (flag : Text)
    (teams : context.teamMeta = db.teams) (services : context.serviceMeta = db.services)
    (known : db.teams.contains context.submitterId = true)
    (condition : strip flag ≠ [] →
      storable env db context.submitterId context.currentRoundId (strip flag)) :
    ∃ next, processFlag env db busy context progress flag = .ok next := by
  unfold processFlag
  dsimp only
  split
  · exact ⟨_, rfl⟩
  next shown =>
  obtain ⟨plain, room⟩ := condition shown
  rw [if_neg (Bool.eq_false_iff.mp plain)]
  split
  · exact ⟨_, rfl⟩
  next unseen =>
  have fresh : submitted (db.submissions ++ progress.pending) context.submitterId (strip flag) = false :=
    Bool.not_eq_true _ ▸ unseen
  split
  · next undecodable =>
    refine (invalid_ok_iff progress _ known fresh).mpr ?_
    rcases room with seen | ⟨fits, decodes | present⟩
    · rw [submitted_append, seen] at fresh
      cases fresh
    · exact absurd undecodable decodes
    · exact ⟨fits, present⟩
  · next info decoded =>
      exact decoded_total progress _ info teams services known fresh (decoded_plain decoded).2

/-- A pass that succeeds had a storable entry, and its pending rows are storable still. -/
theorem pass_storable {progress next : Progress} {flag : Text}
    (pending : ∀ row ∈ progress.pending,
      storable env db context.submitterId context.currentRoundId row.flag)
    (known : db.teams.contains context.submitterId = true)
    (done : processFlag env db busy context progress flag = .ok next) :
    (∀ row ∈ next.pending, storable env db context.submitterId context.currentRoundId row.flag) ∧
      (strip flag ≠ [] → storable env db context.submitterId context.currentRoundId (strip flag)) := by
  unfold processFlag at done
  dsimp only at done
  split at done
  · next blank =>
    cases done
    exact ⟨pending, fun shown => absurd blank shown⟩
  split at done
  · cases done
  next plain =>
  split at done
  · next seen =>
    cases done
    refine ⟨pending, fun _ => ?_⟩
    rw [submitted_append, Bool.or_eq_true] at seen
    rcases seen with stored | here
    · exact ⟨Bool.not_eq_true _ ▸ plain, Or.inl stored⟩
    · rw [submitted, List.any_eq_true] at here
      obtain ⟨row, member, same⟩ := here
      rw [Bool.and_eq_true, decide_eq_true_eq, decide_eq_true_eq] at same
      exact same.2 ▸ pending row member
  next unseen =>
  have fresh : submitted (db.submissions ++ progress.pending) context.submitterId (strip flag) = false :=
    Bool.not_eq_true _ ▸ unseen
  -- Both kinds of row are appended under the stripped flag, which is storable.
  have grows {row : Submission} (named : row.flag = strip flag)
      (grown : next.pending = progress.pending ++ [row])
      (here : storable env db context.submitterId context.currentRoundId (strip flag)) :
      ∀ row ∈ next.pending, storable env db context.submitterId context.currentRoundId row.flag := by
    intro other member
    rw [grown, List.mem_append, List.mem_singleton] at member
    rcases member with old | rfl
    · exact pending other old
    · exact named ▸ here
  split at done
  · obtain ⟨fits, present⟩ := (invalid_ok_iff progress _ known fresh).mp ⟨next, done⟩
    have here : storable env db context.submitterId context.currentRoundId (strip flag) :=
      ⟨Bool.not_eq_true _ ▸ plain, Or.inr ⟨fits, Or.inr present⟩⟩
    unfold processInvalid at done
    dsimp only at done
    split at done
    · cases done
    · next inserted =>
      cases done
      exact ⟨grows rfl (insert_cases inserted).1 here, fun _ => here⟩
  · next info decoded =>
    have here : storable env db context.submitterId context.currentRoundId (strip flag) :=
      storable_of_decoded decoded
    unfold processDecoded at done
    dsimp only at done
    split at done
    · cases done
    · next inserted =>
      cases done
      exact ⟨grows rfl (insert_cases inserted).1 here, fun _ => here⟩

theorem batch_storable (known : db.teams.contains context.submitterId = true) (flags : List Text)
    {start last : Progress}
    (pending : ∀ row ∈ start.pending, storable env db context.submitterId context.currentRoundId row.flag)
    (done : flags.foldlM (processFlag env db busy context) start = .ok last) :
    ∀ flag ∈ flags, strip flag ≠ [] →
      storable env db context.submitterId context.currentRoundId (strip flag) := by
  induction flags generalizing start with
  | nil => exact fun flag member => (List.not_mem_nil member).elim
  | cons head rest ih =>
      rw [List.foldlM_cons] at done
      cases first : processFlag env db busy context start head with
      | error error => rw [first] at done; cases done
      | ok middle =>
          rw [first] at done
          obtain ⟨kept, here⟩ := pass_storable pending known first
          exact List.forall_mem_cons.mpr ⟨here, ih kept done⟩

end Batch

/-- A batch of an existing team commits, with one result for each non-blank entry in
order, exactly when every non-blank entry is storable under the round of the current tick. -/
theorem batch_commits_iff (env : Settings) (db : Db) (now teamId : Int) (team : Team) (flags : List Text)
    (sourceIp : String) (running : gameRunning env db = true) (found : db.teams.get? teamId = some team)
    (playing : team.isNop = false) :
    (∃ after response, submitFlags env db now teamId flags sourceIp true = .ok (after, .done response) ∧
        response.results.map (·.flag) = nonBlank flags) ↔
      ∃ roundId, currentRoundId env db now = .ok roundId ∧
        ∀ flag ∈ nonBlank flags, storable env db teamId roundId flag := by
  have named : identify db teamId = .ok team.name := by
    simp only [identify, found, playing, Bool.false_eq_true, ↓reduceIte]
  have known : db.teams.contains teamId = true := (Dict.contains_eq_some _ _).mpr ⟨team, found⟩
  cases round : currentRoundId env db now with
  | error error =>
      have failed : submitFlags env db now teamId flags sourceIp true = .error error := by
        simp [submitFlags, running, named, prepare, round, bind, Except.bind]
      constructor
      · rintro ⟨after, response, done, _⟩
        rw [failed] at done
        cases done
      · rintro ⟨roundId, never, _⟩
        cases never
  | ok roundId =>
      obtain ⟨context, start, read⟩ : ∃ context start,
          prepare env db now now teamId team.name sourceIp = .ok (context, start) := by
        rw [prepare, round]
        exact ⟨_, _, rfl⟩
      obtain ⟨submitter, _, _, teams, services, sameRound, noRows, noResults⟩ := prepare_cases read
      rw [round, Except.ok.injEq] at sameRound
      have unfolded : submitFlags env db now teamId flags sourceIp true =
          (flags.foldlM (processFlag env db (fun _ => false) context) start).bind fun last =>
            .ok ({ db with submissions := db.submissions ++ last.pending },
              .done (answer env context last)) := by
        simp only [submitFlags, running, named, Bool.not_true, Bool.and_false, Bool.false_eq_true,
          ↓reduceIte, bind, Except.bind]
        simp only [read]
        rfl
      rw [unfolded]
      constructor
      · rintro ⟨after, response, done, _⟩
        refine ⟨roundId, rfl, ?_⟩
        cases folded : flags.foldlM (processFlag env db (fun _ => false) context) start with
        | error error => rw [folded] at done; cases done
        | ok last =>
            intro flag member
            obtain ⟨inside, shown⟩ := List.mem_filter.mp member
            obtain ⟨raw, rawMember, same⟩ := List.mem_map.mp inside
            subst same
            rw [← submitter, sameRound]
            exact batch_storable (submitter ▸ known) flags (by rw [noRows]; simp) folded raw rawMember
              (of_decide_eq_true shown)
      · rintro ⟨other, same, condition⟩
        cases same
        obtain ⟨last, folded⟩ :=
          foldlM_total (f := processFlag env db (fun _ => false) context) flags start (by
          intro progress flag member
          refine process_flag_total progress flag teams services (submitter ▸ known) ?_
          rw [← sameRound, submitter]
          exact fun shown => condition (strip flag) (mem_non_blank member shown))
        refine ⟨_, _, by rw [folded]; rfl, ?_⟩
        show last.resultRows.map (·.flag) = nonBlank flags
        rw [batch_results flags folded, noResults]
        rfl

def betaAndGarbage : List Text := [betaFlag, "garbage".toList]

def afterFirstTick : State :=
  (exec (step sampleSettings sampleDeployment) (fun _ _ => True) (initial 1000000000)
    firstTick).getD (initial 0)

/-- Once the rotator has added round 1, a capture and an undecodable entry both get through. -/
theorem garbage_beside_capture :
    ∃ after response, submitFlags sampleSettings afterFirstTick.db 1000000000 1 betaAndGarbage
        "10.0.0.1" true =
        .ok (after, .done response) ∧ response.results.map (·.flag) = nonBlank betaAndGarbage :=
  (batch_commits_iff sampleSettings afterFirstTick.db 1000000000 1 ⟨"alpha", "submit-alpha",
    "alpha-nat", false, "XK"⟩
    betaAndGarbage "10.0.0.1" (by decide +kernel) (by decide +kernel) rfl).mpr
    ⟨1, by decide +kernel, fun flag member => of_decide_eq_true (List.all_eq_true.mp (show
      (nonBlank betaAndGarbage).all (fun flag => storable sampleSettings afterFirstTick.db 1 1 flag) = true
      by decide +kernel) flag member)⟩

/-- A public request opens tick 1 before the rotator adds its round: the capture is lost too. -/
theorem garbage_loses_capture :
    ∃ state, exec (step sampleSettings sampleDeployment) (fun _ _ => True) (initial 1000000000)
        [.bootstrap, .publicSync] = some state ∧ gameRunning sampleSettings state.db = true ∧
      submitFlags sampleSettings state.db 1000000000 1 betaAndGarbage "10.0.0.1" true = .error .foreignKey ∧
      (submitFlags sampleSettings state.db 1000000000 1 [betaFlag] "10.0.0.1" true).map
        (fun done => done.1.submissions.map (·.result)) = .ok [.accepted] := by
  refine ⟨_, rfl, ?_⟩
  decide +kernel

end KosSim.FlagBatches
