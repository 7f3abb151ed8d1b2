import Mathlib.Data.List.TakeWhile
import KosSim.CheckerExecutor

/-!
When run_checks_for records SUCCESS, and which flags are there then. The status is
SUCCESS exactly in a flawless run; a flawless run has every flag of the retention
window only if the service names all its flag stores, no PUTFLAG is answered with
the text SUCCESS, and every earlier flag was stored.
-/

namespace KosSim.CheckedFlags
open Library EnoChecker Schema CheckerJobs Scoring CheckerExecutor

/-- The result text of the reply to a task. -/
def replyText (world : World) (call : Call) : Option String :=
  (postTask (world.response call)).map (·.result)

def answersOk (world : World) (call : Call) : Bool := replyText world call = some "OK"

/-- The replies that do not pull the status down. -/
def answersFine (world : World) (call : Call) : Bool :=
  replyText world call = some "OK" || replyText world call = some "SUCCESS"

theorem judged_good (world : World) (call : Call) (fine bad : TaskResult → Progress)
    (good : Progress → Prop) :
    (∃ next, judged world call fine bad = .ok next ∧ good next) ↔
      ∃ result, postTask (world.response call) = some result ∧
        (result.result = "OK" ∧ good (fine result) ∨ result.result ≠ "OK" ∧ good (bad result)) := by
  unfold judged runStep
  cases postTask (world.response call) with
  | none => simp
  | some result =>
      by_cases okay : result.result = "OK"
      · simp [okay]
      · simp [okay]

theorem judged_cases {world : World} {call : Call} {fine bad : TaskResult → Progress} {next : Progress}
    (done : judged world call fine bad = .ok next) :
    ∃ result, replyText world call = some result.result ∧
      (result.result = "OK" ∧ next = fine result ∨ result.result ≠ "OK" ∧ next = bad result) := by
  unfold replyText
  obtain ⟨result, found, outcome⟩ := (judged_good world call fine bad (· = next)).mp ⟨next, done, rfl⟩
  refine ⟨result, by rw [found]; rfl, ?_⟩
  rcases outcome with ⟨okay, same⟩ | ⟨other, same⟩
  · exact Or.inl ⟨okay, same.symm⟩
  · exact Or.inr ⟨other, same.symm⟩

/-! The status is always one of the ladder, and only SUCCESS stays SUCCESS. -/

def Known (progress : Progress) : Prop := statusRank progress.overall ≠ none

theorem downgrade_known (current new : CheckerStatus) (known : statusRank current ≠ none) :
    statusRank (downgrade current new) ≠ none := by
  cases current <;> cases new <;> simp_all [downgrade, statusRank]

theorem degrade_known {progress : Progress} (known : Known progress) (result : TaskResult) :
    Known (degrade result progress) := downgrade_known _ _ known

theorem soften_known {progress : Progress} (known : Known progress) (result : TaskResult) :
    Known (soften result progress) := by
  unfold Known soften
  dsimp only
  split
  · decide
  · exact known

theorem timeout_known (settings : ExecutorSettings) {progress : Progress} (known : Known progress) :
    Known (markTimeout settings progress) := downgrade_known _ _ known

theorem judged_known {world : World} {call : Call} {fine bad : TaskResult → Progress} {next : Progress}
    (fineKnown : ∀ result, Known (fine result)) (badKnown : ∀ result, Known (bad result))
    (done : judged world call fine bad = .ok next) : Known next := by
  obtain ⟨result, _, ⟨_, same⟩ | ⟨_, same⟩⟩ := judged_cases done
  · exact same ▸ fineKnown result
  · exact same ▸ badKnown result

def Succeeding (progress : Progress) : Prop := progress.overall = .success

theorem degrade_succeeding {progress : Progress} (known : Known progress) (result : TaskResult)
    (other : result.result ≠ "OK") :
    Succeeding (degrade result progress) ↔ Succeeding progress ∧ result.result = "SUCCESS" := by
  unfold Succeeding degrade
  rw [downgrade_success_iff, normalize_success_iff]
  constructor
  · rintro (⟨held, okay | same⟩ | ⟨unknown, _⟩)
    · exact absurd okay other
    · exact ⟨held, same⟩
    · exact absurd unknown known
  · rintro ⟨held, same⟩
    exact Or.inl ⟨held, Or.inr same⟩

theorem soften_not_succeeding (result : TaskResult) (progress : Progress) :
    ¬ Succeeding (soften result progress) := by
  unfold Succeeding soften
  dsimp only
  split
  · intro never; cases never
  · next failed => exact failed

theorem timeout_not_succeeding (settings : ExecutorSettings) (progress : Progress) :
    ¬ Succeeding (markTimeout settings progress) := by
  unfold Succeeding markTimeout
  dsimp only
  rw [downgrade_success_iff]
  rintro (⟨_, never⟩ | ⟨_, never⟩) <;> cases never

/-- A task whose other replies degrade the status. -/
theorem graded_succeeding (world : World) (call : Call) {progress : Progress} (known : Known progress)
    {fine bad : TaskResult → Progress} (fineSame : ∀ result, (fine result).overall = progress.overall)
    (badSame : ∀ result, (bad result).overall = (degrade result progress).overall) :
    (∃ next, judged world call fine bad = .ok next ∧ Succeeding next) ↔
      Succeeding progress ∧ answersFine world call = true := by
  rw [judged_good]
  have degraded (result : TaskResult) (other : result.result ≠ "OK") :
      Succeeding (bad result) ↔ Succeeding progress ∧ result.result = "SUCCESS" := by
    rw [← degrade_succeeding known result other]
    unfold Succeeding
    rw [badSame]
  have kept (result : TaskResult) : Succeeding (fine result) ↔ Succeeding progress := by
    unfold Succeeding
    rw [fineSame]
  unfold answersFine replyText
  cases postTask (world.response call) with
  | none => simp
  | some result =>
      by_cases okay : result.result = "OK"
      · simp [okay, kept]
      · simp [okay, degraded result okay]

/-- A task whose other replies end SUCCESS. -/
theorem softened_succeeding (world : World) (call : Call) {progress : Progress}
    {fine bad : TaskResult → Progress}
    (fineSame : ∀ result, (fine result).overall = progress.overall)
    (badSoft : ∀ result, ¬ Succeeding (bad result)) :
    (∃ next, judged world call fine bad = .ok next ∧ Succeeding next) ↔
      Succeeding progress ∧ answersOk world call = true := by
  rw [judged_good]
  have kept (result : TaskResult) : Succeeding (fine result) ↔ Succeeding progress := by
    unfold Succeeding
    rw [fineSame]
  unfold answersOk replyText
  cases postTask (world.response call) with
  | none => simp
  | some result =>
      by_cases okay : result.result = "OK"
      · simp [okay, kept]
      · simp [okay, badSoft]

/-! The loops. -/

section Loops
variable {env : Settings} {settings : ExecutorSettings} {world : World} {check : Check}

def inTime (settings : ExecutorSettings) (world : World) (point : Point) : Prop :=
  budgetExceeded settings world point = false

theorem put_flag_known (progress : Progress) (payload : Int) (next : Progress) (known : Known progress)
    (done : putFlag env world check progress payload = .ok next) : Known next := by
  refine judged_known ?_ ?_ done
  · exact fun _ => known
  · exact fun result => degrade_known known result

theorem put_flags_succeeding (env : Settings) {progress : Progress} (known : Known progress) :
    (∃ last, putFlags env settings world check progress = .ok last ∧ Succeeding last) ↔
      Succeeding progress ∧ ∀ payload ∈ intRange 0 (variants world check.service),
        inTime settings world (.task ⟨.putflag, check.tick, payload⟩) ∧
          answersFine world ⟨.putflag, check.tick, payload⟩ = true := by
  refine budgeted_good_iff Known Succeeding _ ?_ ?_ ?_ known
  · exact fun acc payload next _ => put_flag_known acc payload next
  · exact fun acc _ => timeout_not_succeeding settings acc
  · exact fun acc payload _ held => graded_succeeding world _ held (fun _ => rfl) fun _ => rfl

/-- GETFLAG needs the row of the flag, and does not change the table. -/
def stored (check : Check) (flags : FlagTable) (relatedTick payload : Int) : Bool :=
  (storedFlag check flags relatedTick payload).isSome

theorem get_flag_keeps {flags : FlagTable} (relatedTick : Int) (progress : Progress) (payload : Int)
    (next : Progress) (held : Known progress ∧ progress.flags = flags)
    (done : getFlag world check relatedTick progress payload = .ok next) :
    Known next ∧ next.flags = flags := by
  obtain ⟨known, table⟩ := held
  unfold getFlag at done
  split at done
  · rw [← Except.ok.inj done]
    exact ⟨known, table⟩
  · obtain ⟨result, _, ⟨_, same⟩ | ⟨_, same⟩⟩ := judged_cases done
    · exact same ▸ ⟨known, table⟩
    · have noted : Known (note progress relatedTick payload .missing) := known
      exact same ▸ ⟨soften_known noted result, table⟩

theorem get_flag_succeeding {flags : FlagTable} (relatedTick : Int) (progress : Progress) (payload : Int)
    (table : progress.flags = flags) :
    (∃ next, getFlag world check relatedTick progress payload = .ok next ∧ Succeeding next) ↔
      Succeeding progress ∧ (stored check flags relatedTick payload = true →
        answersOk world ⟨.getflag, relatedTick, payload⟩ = true) := by
  unfold getFlag stored
  rw [table]
  cases storedFlag check flags relatedTick payload with
  | none =>
      constructor
      · rintro ⟨next, done, held⟩
        rw [← Except.ok.inj done] at held
        exact ⟨held, fun never => by cases never⟩
      · rintro ⟨held, _⟩
        exact ⟨_, rfl, held⟩
  | some row =>
      rw [softened_succeeding world _ (fun _ => rfl) fun result => soften_not_succeeding result _]
      simp only [Option.isSome_some, forall_const]
      exact Iff.rfl

theorem get_flags_of_keeps {flags : FlagTable} (progress : Progress) (relatedTick : Int)
    (next : Progress) (held : Known progress ∧ progress.flags = flags)
    (done : getFlagsOf settings world check progress relatedTick = .ok next) :
    Known next ∧ next.flags = flags :=
  budgeted_keeps (fun acc : Progress => Known acc ∧ acc.flags = flags)
    (fun acc payload middle _ held => get_flag_keeps relatedTick acc payload middle held)
    (fun _ held => ⟨timeout_known settings held.1, held.2⟩) held done

/-- The reads of one earlier tick. -/
def RowFlawless (settings : ExecutorSettings) (world : World) (check : Check) (stored : Int → Int → Bool)
    (relatedTick : Int) : Prop :=
  ∀ payload ∈ intRange 0 (variants world check.service),
    inTime settings world (.task ⟨.getflag, relatedTick, payload⟩) ∧
      (stored relatedTick payload = true → answersOk world ⟨.getflag, relatedTick, payload⟩ = true)

theorem get_flags_succeeding {flags : FlagTable} {progress : Progress} (known : Known progress)
    (table : progress.flags = flags) :
    (∃ last, getFlags settings world check progress = .ok last ∧ Succeeding last) ↔
      Succeeding progress ∧ ∀ relatedTick ∈ window check,
        inTime settings world (.row .getflag relatedTick) ∧
          RowFlawless settings world check (stored check flags) relatedTick := by
  refine budgeted_good_iff (fun acc : Progress => Known acc ∧ acc.flags = flags) Succeeding _ ?_ ?_
    ?_ ⟨known, table⟩
  · exact fun acc relatedTick next _ => get_flags_of_keeps acc relatedTick next
  · exact fun acc _ => timeout_not_succeeding settings acc
  · intro acc relatedTick _ held
    refine budgeted_good_iff (fun acc : Progress => Known acc ∧ acc.flags = flags) Succeeding
      _ ?_ ?_ ?_ held
    · exact fun acc payload next _ => get_flag_keeps relatedTick acc payload next
    · exact fun acc _ => timeout_not_succeeding settings acc
    · exact fun acc payload _ held => get_flag_succeeding relatedTick acc payload held.2

theorem graded_tasks_succeeding (method : Method) (count : Int) {progress : Progress}
    (known : Known progress) :
    (∃ last, gradedTasks settings world check method count progress = .ok last ∧ Succeeding last) ↔
      Succeeding progress ∧ ∀ call ∈ tasks method check.tick count,
        inTime settings world (.task call) ∧ answersFine world call = true := by
  refine budgeted_good_iff Known Succeeding _ ?_ ?_ ?_ known
  · exact fun acc call next _ held done => judged_known (fun _ => held)
      (fun result => degrade_known held result) done
  · exact fun acc _ => timeout_not_succeeding settings acc
  · exact fun acc call _ held => graded_succeeding world call held (fun _ => rfl) fun _ => rfl

theorem graded_tasks_keep (method : Method) (count : Int) {progress last : Progress}
    (invariant : Progress → Prop) (timeout : ∀ acc, invariant acc → invariant (markTimeout settings acc))
    (degraded : ∀ acc result, invariant acc → invariant (degrade result acc)) (begins : invariant progress)
    (done : gradedTasks settings world check method count progress = .ok last) : invariant last := by
  refine budgeted_keeps invariant ?_ timeout begins done
  intro acc call next _ held taken
  obtain ⟨result, _, ⟨_, same⟩ | ⟨_, same⟩⟩ := judged_cases taken
  · exact same ▸ held
  · exact same ▸ degraded acc result held

theorem get_noise_of_keep (count : Int) (invariant : Progress → Prop)
    (timeout : ∀ acc, invariant acc → invariant (markTimeout settings acc))
    (softened : ∀ acc result, invariant acc → invariant (soften result acc)) {progress last : Progress}
    (relatedTick : Int) (begins : invariant progress)
    (done : getNoiseOf settings world count progress relatedTick = .ok last) : invariant last := by
  refine budgeted_keeps invariant ?_ timeout begins done
  intro acc call next _ held taken
  obtain ⟨result, _, ⟨_, same⟩ | ⟨_, same⟩⟩ := judged_cases taken
  · exact same ▸ held
  · exact same ▸ softened acc result held

/-- The noise tasks, where they run. -/
structure NoiseFlawless (settings : ExecutorSettings) (world : World) (check : Check) (count : Int) :
    Prop where
  put : ∀ call ∈ tasks .putnoise check.tick count,
    inTime settings world (.task call) ∧ answersFine world call = true
  get : ∀ relatedTick ∈ window check, inTime settings world (.row .getnoise relatedTick) ∧
    ∀ call ∈ tasks .getnoise relatedTick count, inTime settings world (.task call) ∧
    answersOk world call = true

theorem run_noise_succeeding {progress : Progress} (known : Known progress) :
    (∃ last, runNoise settings world check progress = .ok last ∧ Succeeding last) ↔
      Succeeding progress ∧
        (settings.noiseEnabled = true ∧ 0 < (serviceInfoFor world check.service).noiseVariants →
          NoiseFlawless settings world check (serviceInfoFor world check.service).noiseVariants) := by
  unfold runNoise
  dsimp only
  generalize (serviceInfoFor world check.service).noiseVariants = count
  by_cases runs : settings.noiseEnabled = true ∧ 0 < count
  · have first := @graded_tasks_succeeding settings world check .putnoise count progress known
    have second (put : Progress) (knownPut : Known put) :
        (∃ last, budgeted (fun relatedTick => budgetExceeded settings world (.row .getnoise relatedTick))
            (markTimeout settings) (getNoiseOf settings world count) (window check) put = .ok last ∧
            Succeeding last) ↔
          Succeeding put ∧ ∀ relatedTick ∈ window check,
          inTime settings world (.row .getnoise relatedTick) ∧
            ∀ call ∈ tasks .getnoise relatedTick count,
              inTime settings world (.task call) ∧ answersOk world call = true := by
      refine budgeted_good_iff Known Succeeding _ ?_ ?_ ?_ knownPut
      · exact fun acc relatedTick next _ held done => get_noise_of_keep count Known
          (fun _ => timeout_known settings)
          (fun _ result held => soften_known held result) relatedTick held done
      · exact fun acc _ => timeout_not_succeeding settings acc
      · intro acc relatedTick _ held
        refine budgeted_good_iff Known Succeeding _ ?_ ?_ ?_ held
        · exact fun acc call next _ held done =>
            judged_known (fun _ => held) (fun result => soften_known held result) done
        · exact fun acc _ => timeout_not_succeeding settings acc
        · exact fun acc call _ _ => softened_succeeding world call (fun _ => rfl)
            fun result => soften_not_succeeding result acc
    simp only [runs.1, runs.2, decide_true, Bool.and_self, ↓reduceIte, and_self, forall_const]
    constructor
    · rintro ⟨last, done, held⟩
      cases ran : gradedTasks settings world check .putnoise count progress with
      | error error => rw [ran] at done; cases done
      | ok put =>
          rw [ran] at done
          have knownPut := graded_tasks_keep .putnoise count Known (fun _ => timeout_known settings)
            (fun _ result held => degrade_known held result) known ran
          obtain ⟨heldPut, get⟩ := (second put knownPut).mp ⟨last, done, held⟩
          obtain ⟨heldStart, put⟩ := first.mp ⟨put, ran, heldPut⟩
          exact ⟨heldStart, put, get⟩
    · rintro ⟨held, put, get⟩
      obtain ⟨middle, ran, heldPut⟩ := first.mpr ⟨held, put⟩
      rw [ran]
      exact (second middle (graded_tasks_keep .putnoise count Known (fun _ => timeout_known settings)
        (fun _ result held => degrade_known held result) known ran)).mpr ⟨heldPut, get⟩
  · have skipped : (settings.noiseEnabled && decide (0 < count)) = false := by
      rw [Bool.eq_false_iff]
      simpa using runs
    rw [skipped]
    simp [runs]

theorem run_havoc_succeeding {progress : Progress} (known : Known progress) :
    (∃ last, runHavoc settings world check progress = .ok last ∧ Succeeding last) ↔
      Succeeding progress ∧
        (settings.havocEnabled = true ∧ 0 < (serviceInfoFor world check.service).havocVariants →
          ∀ call ∈ tasks .havoc check.tick (serviceInfoFor world check.service).havocVariants,
            inTime settings world (.task call) ∧ answersFine world call = true) := by
  unfold runHavoc
  dsimp only
  generalize (serviceInfoFor world check.service).havocVariants = count
  by_cases runs : settings.havocEnabled = true ∧ 0 < count
  · simp only [runs.1, runs.2, decide_true, Bool.and_self, ↓reduceIte, and_self, forall_const]
    exact graded_tasks_succeeding .havoc count known
  · have skipped : (settings.havocEnabled && decide (0 < count)) = false := by
      rw [Bool.eq_false_iff]
      simpa using runs
    rw [skipped]
    simp [runs]

end Loops

/-! The run. -/

section Run
variable (env : Settings) (settings : ExecutorSettings) (world : World) (check : Check) (flags : FlagTable)

/-- The flag is in the table when GETFLAG looks: it was, or this run has put it. -/
def storedThen (relatedTick payload : Int) : Bool :=
  match check.roundIdForTick relatedTick with
  | none => false
  | some roundId =>
      flags.contains (flagKey check roundId payload) ||
        (decide (roundId = check.roundId) && decide (payload ∈ intRange 0 (variants world check.service)) &&
          answersOk world ⟨.putflag, check.tick, payload⟩)

/-- No budget runs out, no task raises, and no reply pulls the status down. -/
structure Flawless : Prop where
  put : ∀ payload ∈ intRange 0 (variants world check.service),
    inTime settings world (.task ⟨.putflag, check.tick, payload⟩) ∧
      answersFine world ⟨.putflag, check.tick, payload⟩ = true
  get : ∀ relatedTick ∈ window check, inTime settings world (.row .getflag relatedTick) ∧
    RowFlawless settings world check (storedThen world check flags) relatedTick
  noise : settings.noiseEnabled = true ∧ 0 < (serviceInfoFor world check.service).noiseVariants →
    NoiseFlawless settings world check (serviceInfoFor world check.service).noiseVariants
  havoc : settings.havocEnabled = true ∧ 0 < (serviceInfoFor world check.service).havocVariants →
    ∀ call ∈ tasks .havoc check.tick (serviceInfoFor world check.service).havocVariants,
      inTime settings world (.task call) ∧ answersFine world call = true

/-- The service names all flag stores, no PUTFLAG is answered SUCCESS, and the earlier
flags were stored. -/
structure Complete : Prop where
  stores : check.service.numPayloads ≤ 0 ∨ (serviceInfoFor world check.service).flagVariants = 0 ∨
    check.service.numPayloads ≤ (serviceInfoFor world check.service).flagVariants
  put : ∀ payload ∈ intRange 0 check.service.numPayloads,
    replyText world ⟨.putflag, check.tick, payload⟩ ≠ some "SUCCESS"
  get : ∀ relatedTick ∈ window check, ∀ payload ∈ intRange 0 check.service.numPayloads,
    storedThen world check flags relatedTick payload = true

/-- PUTFLAG was answered OK for every flag of the tick and GETFLAG for every flag of the
earlier ticks of the window, and flag_avail says so. -/
structure FlagsThere (outcome : Outcome) : Prop where
  put : ∀ payload ∈ intRange 0 check.service.numPayloads,
    answersOk world ⟨.putflag, check.tick, payload⟩ = true ∧
      outcome.flagAvail.get? (check.tick, payload) = some .ok
  get : ∀ relatedTick ∈ window check, ∀ payload ∈ intRange 0 check.service.numPayloads,
    answersOk world ⟨.getflag, relatedTick, payload⟩ = true ∧
      outcome.flagAvail.get? (relatedTick, payload) = some .ok

end Run

section Tables
variable {env : Settings} {settings : ExecutorSettings} {world : World} {check : Check}

theorem stored_put (flags : FlagTable) (payload : Int) (flag : FlagCrypto.Text) (attackInfo : Option String)
    (key : Int × Int × Int × Int) :
    ((storePutflagResult check flags payload flag attackInfo).get? key).isSome =
      (decide (flagKey check check.roundId payload = key) || (flags.get? key).isSome) := by
  unfold storePutflagResult
  rw [Dict.get_set, Dict.get_map_entries]
  by_cases same : flagKey check check.roundId payload = key
  · simp [same]
  · simp [same]

theorem put_flag_rows {progress next : Progress} {payload : Int}
    (done : putFlag env world check progress payload = .ok next) (key : Int × Int × Int × Int) :
    (next.flags.get? key).isSome =
      (answersOk world ⟨.putflag, check.tick, payload⟩ &&
        decide (flagKey check check.roundId payload = key) ||
        (progress.flags.get? key).isSome) := by
  unfold putFlag at done
  obtain ⟨result, reply, ⟨okay, same⟩ | ⟨bad, same⟩⟩ := judged_cases done
  · have answered : answersOk world ⟨.putflag, check.tick, payload⟩ = true := by
      simp [answersOk, reply, okay]
    rw [answered, Bool.true_and, ← stored_put, same]
    rfl
  · have refused : answersOk world ⟨.putflag, check.tick, payload⟩ = false := by
      simp [answersOk, reply, bad]
    rw [refused, Bool.false_and, Bool.false_or, same]
    rfl

/-- The items of a loop that come before the first late one. -/
def reached {α : Type} (settings : ExecutorSettings) (world : World) (point : α → Point)
    (items : List α) : List α :=
  items.takeWhile fun item => !budgetExceeded settings world (point item)

theorem reached_all {α : Type} {point : α → Point} {items : List α}
    (timely : ∀ item ∈ items, inTime settings world (point item)) :
    reached settings world point items = items := by
  refine List.takeWhile_eq_self_iff.mpr fun item member => ?_
  rw [timely item member]
  rfl

theorem reached_sub {α : Type} {point : α → Point} {items : List α} {item : α}
    (member : item ∈ reached settings world point items) : item ∈ items :=
  (List.takeWhile_sublist _).subset member

/-- What a loop leaves in the tables is what its fold over the reached items leaves. -/
theorem loop_reached {α : Type} {point : α → Point} {f : Progress → α → Except Call Progress}
    {items : List α} {start last : Progress}
    (done : budgeted (fun item => budgetExceeded settings world (point item)) (markTimeout settings)
      f items start = .ok last) :
    ∃ middle, (reached settings world point items).foldlM f start = .ok middle ∧
      last.flagAvail = middle.flagAvail ∧ last.flags = middle.flags := by
  obtain ⟨middle, run, same | same⟩ := budgeted_reached done
  · exact ⟨middle, run, same ▸ rfl, same ▸ rfl⟩
  · exact ⟨middle, run, same ▸ rfl, same ▸ rfl⟩

/-- The PUTFLAGs that are sent. -/
def putsReached (settings : ExecutorSettings) (world : World) (check : Check) : List Int :=
  reached settings world (fun payload => .task ⟨.putflag, check.tick, payload⟩)
    (intRange 0 (variants world check.service))

/-- `storedThen` for the PUTFLAGs that are sent. -/
def storedAfter (settings : ExecutorSettings) (world : World) (check : Check) (flags : FlagTable)
    (relatedTick payload : Int) : Bool :=
  match check.roundIdForTick relatedTick with
  | none => false
  | some roundId =>
      flags.contains (flagKey check roundId payload) ||
        (decide (roundId = check.roundId) && decide (payload ∈ putsReached settings world check) &&
          answersOk world ⟨.putflag, check.tick, payload⟩)

theorem puts_reached_all (timely : ∀ payload ∈ intRange 0 (variants world check.service),
    inTime settings world (.task ⟨.putflag, check.tick, payload⟩)) :
    putsReached settings world check = intRange 0 (variants world check.service) :=
  reached_all timely

/-- The rows of the table after the PUTFLAG loop. -/
theorem put_flags_rows {progress put : Progress}
    (done : putFlags env settings world check progress = .ok put) (relatedTick payload : Int) :
    stored check put.flags relatedTick payload =
      storedAfter settings world check progress.flags relatedTick payload := by
  obtain ⟨middle, run, _, table⟩ := loop_reached done
  unfold stored storedFlag storedAfter
  cases check.roundIdForTick relatedTick with
  | none => rfl
  | some roundId =>
      have rows := foldlM_adds (fun (acc : Progress) key => (acc.flags.get? key).isSome)
        (fun payload key => answersOk world ⟨.putflag, check.tick, payload⟩ &&
          decide (flagKey check check.roundId payload = key))
        (fun _ _ _ _ taken => put_flag_rows taken) run (flagKey check roundId payload)
      rw [Option.bind_some, table, rows, Bool.or_comm, Bool.eq_iff_iff]
      simp only [Dict.contains, Bool.or_eq_true, List.any_eq_true, Bool.and_eq_true,
        decide_eq_true_eq, flagKey, Prod.mk.injEq, true_and]
      refine or_congr Iff.rfl ⟨?_, ?_⟩
      · rintro ⟨other, inside, okay, sameRound, rfl⟩
        exact ⟨⟨sameRound.symm, inside⟩, okay⟩
      · rintro ⟨⟨sameRound, inside⟩, okay⟩
        exact ⟨payload, inside, okay, sameRound.symm, rfl⟩

theorem put_flags_stored {progress put : Progress}
    (timely : ∀ payload ∈ intRange 0 (variants world check.service),
      inTime settings world (.task ⟨.putflag, check.tick, payload⟩))
    (done : putFlags env settings world check progress = .ok put) (relatedTick payload : Int) :
    stored check put.flags relatedTick payload =
      storedThen world check progress.flags relatedTick payload := by
  rw [put_flags_rows done, storedAfter, puts_reached_all timely]
  rfl

/-! What flag_avail says after the loops. -/

def availOf (okay : Bool) : FlagAvail := if okay then .ok else .missing

def isCell (tick payload : Int) (cell : Int × Int) : Bool := decide (cell = (tick, payload))

theorem put_flags_cells {progress put : Progress}
    (done : putFlags env settings world check progress = .ok put) (cell : Int × Int) :
    put.flagAvail.get? cell =
      if (putsReached settings world check).any (fun payload => isCell check.tick payload cell) then
        some (availOf (answersOk world ⟨.putflag, check.tick, cell.2⟩))
      else progress.flagAvail.get? cell := by
  obtain ⟨middle, run, avail, _⟩ := loop_reached done
  rw [avail]
  refine foldlM_writes (fun (acc : Progress) cell => acc.flagAvail.get? cell) (isCell check.tick)
    (fun cell => availOf (answersOk world ⟨.putflag, check.tick, cell.2⟩))
    (fun _ => True) (fun _ _ _ _ _ _ => trivial) ?_ trivial run cell
  intro acc payload next _ _ taken cell
  unfold putFlag at taken
  obtain ⟨result, reply, ⟨okay, same⟩ | ⟨bad, same⟩⟩ := judged_cases taken
  · subst same
    by_cases here : cell = (check.tick, payload)
    · simp [note, isCell, here, answersOk, reply, okay, availOf]
    · simp [note, isCell, here, Dict.get_set_other _ _ _ _ (Ne.symm here)]
  · subst same
    by_cases here : cell = (check.tick, payload)
    · simp [note, isCell, here, answersOk, reply, bad, availOf]
    · simp [note, degrade, isCell, here, Dict.get_set_other _ _ _ _ (Ne.symm here)]

def getAvail (world : World) (check : Check) (flags : FlagTable) (cell : Int × Int) : FlagAvail :=
  availOf (stored check flags cell.1 cell.2 && answersOk world ⟨.getflag, cell.1, cell.2⟩)

theorem get_flag_avail {flags : FlagTable} {relatedTick payload : Int} {progress next : Progress}
    (table : progress.flags = flags) (done : getFlag world check relatedTick progress payload = .ok next)
    (cell : Int × Int) :
    next.flagAvail.get? cell =
      if isCell relatedTick payload cell then some (getAvail world check flags cell)
      else progress.flagAvail.get? cell := by
  unfold getFlag at done
  rw [table] at done
  have written (avail : FlagAvail) (fits : avail = getAvail world check flags (relatedTick, payload)) :
      (progress.flagAvail.set (relatedTick, payload) avail).get? cell =
        if isCell relatedTick payload cell then some (getAvail world check flags cell)
        else progress.flagAvail.get? cell := by
    by_cases here : cell = (relatedTick, payload)
    · simp [isCell, here, fits]
    · simp [isCell, here, Dict.get_set_other _ _ _ _ (Ne.symm here)]
  split at done
  · next absent =>
    rw [← Except.ok.inj done]
    exact written .missing (by simp [getAvail, stored, absent, availOf])
  · next row present =>
    obtain ⟨result, reply, ⟨okay, same⟩ | ⟨bad, same⟩⟩ := judged_cases done
    · rw [same]
      exact written .ok (by simp [getAvail, stored, present, answersOk, reply, okay, availOf])
    · rw [same]
      exact written .missing (by simp [getAvail, stored, present, answersOk, reply, bad, availOf])

/-- The cells of the earlier ticks that the run looks at. -/
def getsReached (settings : ExecutorSettings) (world : World) (check : Check) (relatedTick : Int) :
    List Int :=
  reached settings world (fun payload => .task ⟨.getflag, relatedTick, payload⟩)
    (intRange 0 (variants world check.service))

def rowsReached (settings : ExecutorSettings) (world : World) (check : Check) : List Int :=
  reached settings world (.row .getflag) (window check)

theorem get_flags_cells {flags : FlagTable} {progress got : Progress} (known : Known progress)
    (table : progress.flags = flags) (done : getFlags settings world check progress = .ok got)
    (cell : Int × Int) :
    got.flagAvail.get? cell =
      if (rowsReached settings world check).any (fun relatedTick =>
          (getsReached settings world check relatedTick).any fun payload =>
            isCell relatedTick payload cell) then
        some (getAvail world check flags cell)
      else progress.flagAvail.get? cell := by
  obtain ⟨middle, run, avail, _⟩ := loop_reached done
  rw [avail]
  refine foldlM_writes (fun (acc : Progress) cell => acc.flagAvail.get? cell)
    (fun relatedTick cell => (getsReached settings world check relatedTick).any fun payload =>
      isCell relatedTick payload cell)
    (getAvail world check flags) (fun acc => Known acc ∧ acc.flags = flags) ?_ ?_ ⟨known, table⟩ run cell
  · exact fun acc relatedTick next _ => get_flags_of_keeps acc relatedTick next
  · intro acc relatedTick next _ held taken cell
    obtain ⟨middle, run, avail, _⟩ := loop_reached taken
    rw [avail]
    refine foldlM_writes (fun (acc : Progress) cell => acc.flagAvail.get? cell) (isCell relatedTick)
      (getAvail world check flags) (fun acc => Known acc ∧ acc.flags = flags) ?_ ?_ held run cell
    · exact fun acc payload next _ => get_flag_keeps relatedTick acc payload next
    · exact fun acc payload next _ held taken => get_flag_avail held.2 taken

theorem run_noise_avail {progress noisy : Progress}
    (done : runNoise settings world check progress = .ok noisy) :
    noisy.flagAvail = progress.flagAvail := by
  unfold runNoise at done
  dsimp only at done
  split at done
  · split at done
    · cases done
    · next put ran =>
      have first := graded_tasks_keep .putnoise _ (fun acc => acc.flagAvail = progress.flagAvail)
        (fun _ same => same) (fun _ _ same => same) rfl ran
      refine budgeted_keeps (fun acc : Progress => acc.flagAvail = progress.flagAvail) ?_ ?_ first done
      · exact fun acc relatedTick next _ same taken => get_noise_of_keep _
          (fun acc => acc.flagAvail = progress.flagAvail) (fun _ same => same)
          (fun _ _ same => same) relatedTick same taken
      · exact fun _ same => same
  · rw [← Except.ok.inj done]

theorem run_havoc_avail {progress last : Progress}
    (done : runHavoc settings world check progress = .ok last) :
    last.flagAvail = progress.flagAvail := by
  unfold runHavoc at done
  dsimp only at done
  split at done
  · exact graded_tasks_keep .havoc _ (fun acc => acc.flagAvail = progress.flagAvail)
      (fun _ same => same) (fun _ _ same => same) rfl done
  · rw [← Except.ok.inj done]

end Tables

/-! SUCCESS. -/

section Success
variable {env : Settings} {settings : ExecutorSettings} {world : World} {check : Check} {flags : FlagTable}

def fresh (flags : FlagTable) : Progress := ⟨.success, Dict.empty, none, none, flags⟩

theorem fresh_known (flags : FlagTable) : Known (fresh flags) := by
  intro never; cases never

theorem run_checks_cases {table : FlagTable} {outcome : Outcome}
    (done : runChecksFor env settings world check flags = .ok (table, outcome)) :
    ∃ put got noisy last, putFlags env settings world check (fresh flags) = .ok put ∧
      getFlags settings world check put = .ok got ∧ runNoise settings world check got = .ok noisy ∧
      runHavoc settings world check noisy = .ok last ∧
      outcome = ⟨last.overall, last.lastMessage, last.lastAttackInfo, last.flagAvail⟩ := by
  unfold runChecksFor at done
  obtain ⟨put, putDone, done⟩ := bind_ok_iff.mp done
  obtain ⟨got, gotDone, done⟩ := bind_ok_iff.mp done
  obtain ⟨noisy, noisyDone, done⟩ := bind_ok_iff.mp done
  obtain ⟨last, lastDone, done⟩ := bind_ok_iff.mp done
  exact ⟨put, got, noisy, last, putDone, gotDone, noisyDone, lastDone,
    (Prod.mk.inj (Except.ok.inj done)).2.symm⟩

theorem put_flags_known {put : Progress}
    (done : putFlags env settings world check (fresh flags) = .ok put) :
    Known put :=
  budgeted_keeps Known (fun acc payload next _ => put_flag_known acc payload next)
    (fun _ => timeout_known settings) (fresh_known flags) done

theorem get_flags_keeps {put got : Progress} (known : Known put)
    (done : getFlags settings world check put = .ok got) : Known got ∧ got.flags = put.flags :=
  budgeted_keeps (fun acc : Progress => Known acc ∧ acc.flags = put.flags)
    (fun acc relatedTick next _ => get_flags_of_keeps acc relatedTick next)
    (fun _ held => ⟨timeout_known settings held.1, held.2⟩) ⟨known, rfl⟩ done

theorem run_noise_known {progress noisy : Progress} (known : Known progress)
    (done : runNoise settings world check progress = .ok noisy) : Known noisy := by
  unfold runNoise at done
  dsimp only at done
  split at done
  · split at done
    · cases done
    · next put ran =>
      have first := graded_tasks_keep .putnoise _ Known (fun _ => timeout_known settings)
        (fun _ result held => degrade_known held result) known ran
      refine budgeted_keeps Known ?_ (fun _ => timeout_known settings) first done
      exact fun acc relatedTick next _ held taken =>
        get_noise_of_keep _ Known (fun _ => timeout_known settings)
        (fun _ result held => soften_known held result) relatedTick held taken
  · rw [← Except.ok.inj done]
    exact known

/-- A run that ends with SUCCESS was flawless. -/
theorem flawless_of_success {table : FlagTable} {outcome : Outcome}
    (done : runChecksFor env settings world check flags = .ok (table, outcome))
    (success : outcome.status = .success) :
    Flawless settings world check flags := by
  obtain ⟨put, got, noisy, last, putDone, gotDone, noisyDone, lastDone, rfl⟩ := run_checks_cases done
  have knownPut := put_flags_known putDone
  obtain ⟨knownGot, _⟩ := get_flags_keeps knownPut gotDone
  have knownNoisy := run_noise_known knownGot noisyDone
  obtain ⟨noisySuccess, havoc⟩ := (run_havoc_succeeding knownNoisy).mp ⟨last, lastDone, success⟩
  obtain ⟨gotSuccess, noise⟩ := (run_noise_succeeding knownGot).mp ⟨noisy, noisyDone, noisySuccess⟩
  obtain ⟨putSuccess, get⟩ := (get_flags_succeeding knownPut rfl).mp ⟨got, gotDone, gotSuccess⟩
  obtain ⟨_, puts⟩ := (put_flags_succeeding env (fresh_known flags)).mp ⟨put, putDone, putSuccess⟩
  refine ⟨puts, ?_, noise, havoc⟩
  intro relatedTick member
  refine ⟨(get relatedTick member).1, fun payload inside => ?_⟩
  have read := (get relatedTick member).2 payload inside
  rw [put_flags_stored (fun payload inside => (puts payload inside).1) putDone] at read
  exact read

/-- A flawless run ends with SUCCESS, and flag_avail then tells of every flag it looked at. -/
theorem success_of_flawless (env : Settings) (flawless : Flawless settings world check flags) :
    ∃ table outcome, runChecksFor env settings world check flags = .ok (table, outcome) ∧
      outcome.status = .success ∧ ∀ cell, outcome.flagAvail.get? cell =
        if (window check).any (fun relatedTick =>
            (intRange 0 (variants world check.service)).any fun payload =>
              isCell relatedTick payload cell) then
          some (availOf (storedThen world check flags cell.1 cell.2 &&
            answersOk world ⟨.getflag, cell.1, cell.2⟩))
        else if (intRange 0 (variants world check.service)).any
        (fun payload => isCell check.tick payload cell) then
          some (availOf (answersOk world ⟨.putflag, check.tick, cell.2⟩))
        else none := by
  obtain ⟨puts, get, noise, havoc⟩ := flawless
  have timely (payload : Int) (inside : payload ∈ intRange 0 (variants world check.service)) :=
    (puts payload inside).1
  obtain ⟨put, putDone, putSuccess⟩ :=
    (put_flags_succeeding env (fresh_known flags)).mpr ⟨rfl, puts⟩
  have knownPut := put_flags_known putDone
  have table := put_flags_stored timely putDone
  obtain ⟨got, gotDone, gotSuccess⟩ :=
    (get_flags_succeeding knownPut rfl).mpr ⟨putSuccess, fun relatedTick member =>
    ⟨(get relatedTick member).1, fun payload inside => by
      rw [table]
      exact (get relatedTick member).2 payload inside⟩⟩
  obtain ⟨knownGot, _⟩ := get_flags_keeps knownPut gotDone
  obtain ⟨noisy, noisyDone, noisySuccess⟩ := (run_noise_succeeding knownGot).mpr ⟨gotSuccess, noise⟩
  have knownNoisy := run_noise_known knownGot noisyDone
  obtain ⟨last, lastDone, success⟩ := (run_havoc_succeeding knownNoisy).mpr ⟨noisySuccess, havoc⟩
  refine ⟨last.flags, ⟨last.overall, last.lastMessage, last.lastAttackInfo, last.flagAvail⟩, ?_,
    success, ?_⟩
  · exact bind_ok_iff.mpr ⟨put, putDone, bind_ok_iff.mpr ⟨got, gotDone, bind_ok_iff.mpr ⟨noisy, noisyDone,
      bind_ok_iff.mpr ⟨last, lastDone, rfl⟩⟩⟩⟩
  · intro cell
    have same : last.flagAvail = got.flagAvail :=
      (run_havoc_avail lastDone).trans (run_noise_avail noisyDone)
    have rows : rowsReached settings world check = window check :=
      reached_all fun relatedTick member => (get relatedTick member).1
    have looked : ((rowsReached settings world check).any fun relatedTick =>
          (getsReached settings world check relatedTick).any fun payload =>
            isCell relatedTick payload cell) =
        (window check).any fun relatedTick =>
          (intRange 0 (variants world check.service)).any fun payload =>
            isCell relatedTick payload cell := by
      rw [rows, Bool.eq_iff_iff, List.any_eq_true, List.any_eq_true]
      refine exists_congr fun relatedTick => and_congr_right fun member => ?_
      have whole : getsReached settings world check relatedTick =
          intRange 0 (variants world check.service) :=
        reached_all fun payload inside => ((get relatedTick member).2 payload inside).1
      rw [whole]
    rw [same, get_flags_cells knownPut rfl gotDone cell, put_flags_cells putDone cell, looked,
      puts_reached_all timely, getAvail, table]
    rfl

theorem any_cell (payloads : List Int) (tick : Int) (cell : Int × Int) :
    (payloads.any fun payload => isCell tick payload cell) = true ↔ cell.1 = tick ∧ cell.2 ∈ payloads := by
  rw [List.any_eq_true]
  constructor
  · rintro ⟨payload, inside, same⟩
    rw [of_decide_eq_true same]
    exact ⟨rfl, inside⟩
  · rintro ⟨same, inside⟩
    exact ⟨cell.2, inside, decide_eq_true (Prod.ext same rfl)⟩

theorem avail_ok_iff (okay : Bool) : some (availOf okay) = some FlagAvail.ok ↔ okay = true := by
  cases okay <;> decide

/-- Where the service names all its flag stores, the run looks at all of them. -/
theorem all_stores_iff :
    (∀ payload ∈ intRange 0 check.service.numPayloads,
      payload ∈ intRange 0 (variants world check.service)) ↔
      (check.service.numPayloads ≤ 0 ∨ (serviceInfoFor world check.service).flagVariants = 0 ∨
        check.service.numPayloads ≤ (serviceInfoFor world check.service).flagVariants) := by
  simp only [mem_int_range, variants]
  constructor
  · intro all
    by_contra few
    have last := all (check.service.numPayloads - 1) (by omega)
    split at last <;> omega
  · intro stores payload inside
    split <;> omega

/-- SUCCESS means that every flag is there, for a service that is complete as far as the
run can see it: that is what a flawless run needs. -/
theorem success_means_flags_iff (env : Settings) (settings : ExecutorSettings) (world : World)
    (check : Check) (flags : FlagTable) :
    (∀ table outcome, runChecksFor env settings world check flags = .ok (table, outcome) →
        outcome.status = .success → FlagsThere world check outcome) ↔
      (Flawless settings world check flags → Complete world check flags) := by
  have apart (relatedTick : Int) (member : relatedTick ∈ window check) : relatedTick ≠ check.tick := by
    have bounds := (mem_int_range _ _ _).mp member
    omega
  constructor
  · intro holds flawless
    obtain ⟨table, outcome, done, success, avail⟩ := success_of_flawless env flawless
    obtain ⟨put, get⟩ := holds table outcome done success
    have putCell (payload : Int) (inside : payload ∈ intRange 0 check.service.numPayloads) :
        payload ∈ intRange 0 (variants world check.service) := by
      have cell := (put payload inside).2
      rw [avail, if_neg] at cell
      · split at cell
        · next looked => exact ((any_cell _ _ _).mp looked).2
        · cases cell
      · intro never
        obtain ⟨relatedTick, member, looked⟩ := List.any_eq_true.mp never
        exact apart relatedTick member ((any_cell _ _ _).mp looked).1.symm
    refine ⟨all_stores_iff.mp putCell, ?_, ?_⟩
    · intro payload inside same
      have okay := of_decide_eq_true (put payload inside).1
      rw [okay] at same
      exact absurd same (by decide)
    · intro relatedTick member payload inside
      have cell := (get relatedTick member payload inside).2
      rw [avail, if_pos (List.any_eq_true.mpr ⟨relatedTick, member,
        (any_cell _ relatedTick (relatedTick, payload)).mpr ⟨rfl, putCell payload inside⟩⟩),
        avail_ok_iff, Bool.and_eq_true] at cell
      exact cell.1
  · intro whole table outcome done success
    have flawless := flawless_of_success done success
    obtain ⟨stores, put, get⟩ := whole flawless
    obtain ⟨other, same, again, _, avail⟩ := success_of_flawless env flawless
    rw [done] at again
    obtain ⟨rfl, rfl⟩ := Prod.mk.inj (Except.ok.inj again)
    have all := all_stores_iff.mpr stores
    refine ⟨?_, ?_⟩
    · intro payload inside
      have okay : answersOk world ⟨.putflag, check.tick, payload⟩ = true := by
        have fine := (flawless.put payload (all payload inside)).2
        rcases (Bool.or_eq_true _ _).mp fine with okay | never
        · exact okay
        · exact absurd (of_decide_eq_true never) (put payload inside)
      refine ⟨okay, ?_⟩
      rw [avail, if_neg,
        if_pos ((any_cell _ check.tick (check.tick, payload)).mpr ⟨rfl, all payload inside⟩), avail_ok_iff]
      · exact okay
      · intro never
        obtain ⟨relatedTick, member, looked⟩ := List.any_eq_true.mp never
        exact apart relatedTick member ((any_cell _ _ _).mp looked).1.symm
    · intro relatedTick member payload inside
      have present := get relatedTick member payload inside
      have okay := ((flawless.get relatedTick member).2 payload (all payload inside)).2 present
      refine ⟨okay, ?_⟩
      rw [avail, if_pos (List.any_eq_true.mpr ⟨relatedTick, member,
        (any_cell _ relatedTick (relatedTick, payload)).mpr ⟨rfl, all payload inside⟩⟩), avail_ok_iff,
        present, okay]
      rfl

end Success

/-- A service with three flag stores that names one variant and answers OK to everything. -/
def modestWorld : World where
  info := some ⟨"svc1", 1, 0, 0⟩
  response := fun _ => .answer (some "OK") none none
  expired := fun _ => false

def sampleCheck : Check where
  teamId := 2
  service := ⟨1, "svc1", 3, 3⟩
  tick := 1
  roundId := 1
  expiresAt := 1120000000
  retention := 5
  roundIdForTick := fun _ => none

theorem modest_service_succeeds :
    ∃ table outcome, runChecksFor (defaultSettings fun _ => [])
        ⟨some "25", true, true⟩ modestWorld sampleCheck
        Dict.empty = .ok (table, outcome) ∧ outcome.status = .success ∧
      outcome.flagAvail.entries = [((1, 0), .ok)] ∧ ¬ FlagsThere modestWorld sampleCheck outcome := by
  refine ⟨_, _, rfl, rfl, rfl, ?_⟩
  intro there
  have last := (there.put 2 (by decide)).2
  revert last
  decide

end KosSim.CheckedFlags
