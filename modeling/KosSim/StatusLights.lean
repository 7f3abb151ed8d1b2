import KosSim.CheckedFlags

/-!
The three lights of a scoreboard cell against what the run did. derive_method_statuses sees the
status and flag_avail only: the put and get lights speak of the flags that the run came to, and
the havoc light blames HAVOC for whatever else pulled the status down.
-/

namespace KosSim.StatusLights
open Library EnoChecker Schema CheckerJobs Scoring CheckerExecutor CheckedFlags

variable {env : Settings} {settings : ExecutorSettings} {world : World} {check : Check} {flags : FlagTable}

/-! What the run came to. -/

/-- The HAVOC tasks that are sent. -/
def havocsReached (settings : ExecutorSettings) (world : World) (check : Check) : List Call :=
  let count := (serviceInfoFor world check.service).havocVariants
  if settings.havocEnabled && decide (0 < count) then reached settings world .task
    (tasks .havoc check.tick count) else []

/-- The flags of earlier ticks that are looked up. -/
def cellsReached (settings : ExecutorSettings) (world : World) (check : Check) : List (Int × Int) :=
  (rowsReached settings world check).flatMap fun relatedTick =>
    (getsReached settings world check relatedTick).map fun payload => (relatedTick, payload)

/-- GETFLAG was sent, as the flag was stored, and answered OK. -/
def there (settings : ExecutorSettings) (world : World) (check : Check) (flags : FlagTable)
    (cell : Int × Int) : Bool :=
  storedAfter settings world check flags cell.1 cell.2 && answersOk world ⟨.getflag, cell.1, cell.2⟩

def PutsOk (settings : ExecutorSettings) (world : World) (check : Check) : Prop :=
  putsReached settings world check ≠ [] ∧
    ∀ payload ∈ putsReached settings world check, answersOk world ⟨.putflag, check.tick, payload⟩ = true

def GetsOk (settings : ExecutorSettings) (world : World) (check : Check) (flags : FlagTable) : Prop :=
  cellsReached settings world check ≠ [] ∧
    ∀ cell ∈ cellsReached settings world check, there settings world check flags cell = true

def HavocsOk (settings : ExecutorSettings) (world : World) (check : Check) : Prop :=
  ∀ call ∈ havocsReached settings world check, answersOk world call = true

/-- The place of the reply's status on the ladder: 4 and above is up, below 3 is hard down. -/
def ranks (level : Nat) (world : World) (call : Call) : Bool :=
  (replyText world call).any fun text => (statusRank (EnoChecker.normalize text)).any fun rank =>
    decide (level ≤ rank)

/-- No budget runs out where the run asks, and no reply to PUTFLAG, PUTNOISE or HAVOC is below the level. -/
structure Holds (level : Nat) (settings : ExecutorSettings) (world : World) (check : Check) : Prop where
  put : ∀ payload ∈ intRange 0 (variants world check.service),
    inTime settings world (.task ⟨.putflag, check.tick, payload⟩) ∧
    ranks level world ⟨.putflag, check.tick, payload⟩ = true
  get : ∀ relatedTick ∈ window check, inTime settings world (.row .getflag relatedTick) ∧
    ∀ payload ∈ intRange 0 (variants world check.service),
    inTime settings world (.task ⟨.getflag, relatedTick, payload⟩)
  noise : settings.noiseEnabled = true ∧ 0 < (serviceInfoFor world check.service).noiseVariants →
    (∀ call ∈ tasks .putnoise check.tick (serviceInfoFor world check.service).noiseVariants,
      inTime settings world (.task call) ∧ ranks level world call = true) ∧
    ∀ relatedTick ∈ window check, inTime settings world (.row .getnoise relatedTick) ∧
      ∀ call ∈ tasks .getnoise relatedTick (serviceInfoFor world check.service).noiseVariants,
        inTime settings world (.task call)
  havoc : settings.havocEnabled = true ∧ 0 < (serviceInfoFor world check.service).havocVariants →
    ∀ call ∈ tasks .havoc check.tick (serviceInfoFor world check.service).havocVariants,
      inTime settings world (.task call) ∧ ranks level world call = true

def lights (check : Check) (outcome : Outcome) : MethodStatus × MethodStatus × MethodStatus :=
  deriveMethodStatuses outcome.status outcome.flagAvail.entries (some check.tick)

structure Truthful (settings : ExecutorSettings) (world : World) (check : Check) (flags : FlagTable)
    (outcome : Outcome) :
    Prop where
  havocFail : (lights check outcome).2.2 = .fail → ∃ call ∈ havocsReached settings world check,
  answersOk world call = false
  havocOk : (lights check outcome).2.2 = .ok → HavocsOk settings world check
  put : (lights check outcome).1 = .ok → ∀ payload ∈ intRange 0 (variants world check.service),
    payload ∈ putsReached settings world check ∧ answersOk world ⟨.putflag, check.tick, payload⟩ = true
  get : (lights check outcome).2.1 = .ok → ∀ relatedTick ∈ window check,
    ∀ payload ∈ intRange 0 (variants world check.service),
      (relatedTick, payload) ∈ cellsReached settings world check ∧
      there settings world check flags (relatedTick, payload) = true

/-- The runs whose failures the lights can tell apart. -/
structure Separate (settings : ExecutorSettings) (world : World) (check : Check) (flags : FlagTable) :
    Prop where
  putsWhole : PutsOk settings world check → ∀ payload ∈ intRange 0 (variants world check.service),
    inTime settings world (.task ⟨.putflag, check.tick, payload⟩)
  getsWhole : GetsOk settings world check flags → ∀ relatedTick ∈ window check,
    inTime settings world (.row .getflag relatedTick) ∧
    ∀ payload ∈ intRange 0 (variants world check.service),
      inTime settings world (.task ⟨.getflag, relatedTick, payload⟩)
  onlyHavoc : PutsOk settings world check →
    GetsOk settings world check flags ∨ cellsReached settings world check = [] ∧
    Holds 3 settings world check → HavocsOk settings world check → Holds 4 settings world check
  plainHavoc : Holds 4 settings world check → HavocsOk settings world check

/-! The status on the ladder. -/

def AtLeast (level : Nat) (status : CheckerStatus) : Prop :=
  (statusRank status).any (fun rank => decide (level ≤ rank)) = true

instance (level : Nat) (status : CheckerStatus) : Decidable (AtLeast level status) :=
  inferInstanceAs (Decidable (_ = true))

theorem normalize_rank (text : String) : statusRank (EnoChecker.normalize text) ≠ none := by
  unfold EnoChecker.normalize
  split
  · next known found =>
    obtain ⟨before, after, listed, _⟩ := List.lookup_eq_some_iff.mp found
    have member : (text, known) ∈ ladder := by
      rw [listed]
      exact List.mem_append_right before List.mem_cons_self
    have all : ∀ entry ∈ ladder, statusRank entry.2 ≠ none := by decide
    exact all _ member
  · split
    · decide
    · split <;> decide

theorem downgrade_at_least {current new : CheckerStatus} (known : statusRank current ≠ none)
    (offered : statusRank new ≠ none) (level : Nat) :
    AtLeast level (downgrade current new) ↔ AtLeast level current ∧ AtLeast level new := by
  obtain ⟨held, isHeld⟩ := Option.ne_none_iff_exists'.mp known
  obtain ⟨rank, isRank⟩ := Option.ne_none_iff_exists'.mp offered
  simp only [AtLeast, downgrade, isRank, isHeld, Option.isNone_some, Bool.false_eq_true, ↓reduceIte,
    Option.any_some,
    decide_eq_true_eq]
  by_cases above : held ≤ rank
  · simp only [above, ↓reduceIte, isHeld, Option.any_some, decide_eq_true_eq]
    omega
  · simp only [above, ↓reduceIte, isRank, Option.any_some, decide_eq_true_eq]
    omega

section Level
variable {level : Nat} (low : 2 ≤ level) (high : level ≤ 4)

include low in
theorem timeout_below (settings : ExecutorSettings) {progress : Progress} (known : Known progress) :
    ¬ AtLeast level (markTimeout settings progress).overall := by
  intro held
  have down := ((downgrade_at_least known (by decide) level).mp held).2
  have one : level ≤ 1 := of_decide_eq_true down
  omega

include high in
theorem soften_at_least (result : TaskResult) (progress : Progress) :
    AtLeast level (soften result progress).overall ↔ AtLeast level progress.overall := by
  unfold soften
  dsimp only
  split
  · next success =>
    rw [success]
    have both (status : CheckerStatus) (rank : Nat) (isRank : statusRank status = some rank)
        (above : 4 ≤ rank) : AtLeast level status := by
      simp only [AtLeast, isRank, Option.any_some, decide_eq_true_eq]
      omega
    exact iff_of_true (both _ 4 rfl (by omega)) (both _ 5 rfl (by omega))
  · exact Iff.rfl

include high in
/-- A task whose other replies degrade the status. -/
theorem graded_at_least {call : Call} {progress next : Progress} (known : Known progress)
    {fine bad : TaskResult → Progress} (done : judged world call fine bad = .ok next)
    (fineSame : ∀ result, (fine result).overall = progress.overall)
    (badSame : ∀ result, (bad result).overall = (degrade result progress).overall) :
    AtLeast level next.overall ↔ AtLeast level progress.overall ∧ ranks level world call = true := by
  obtain ⟨result, reply, ⟨okay, same⟩ | ⟨_, same⟩⟩ := judged_cases done
  · have passes : ranks level world call = true := by
      have five : level ≤ 5 := by omega
      rw [ranks, reply, okay]
      exact decide_eq_true five
    rw [same, fineSame, and_iff_left passes]
  · rw [same, badSame]
    have rank : ranks level world call = (statusRank (EnoChecker.normalize result.result)).any
        (fun rank => decide (level ≤ rank)) := by
      rw [ranks, reply]
      rfl
    rw [rank]
    exact downgrade_at_least known (normalize_rank _) level

include low high in
theorem put_flags_at_least {put : Progress}
    (done : putFlags env settings world check (fresh flags) = .ok put) :
    AtLeast level put.overall ↔ ∀ payload ∈ intRange 0 (variants world check.service),
      inTime settings world (.task ⟨.putflag, check.tick, payload⟩) ∧
        ranks level world ⟨.putflag, check.tick, payload⟩ = true := by
  have begun : AtLeast level (fresh flags).overall := by
    have five : level ≤ 5 := by omega
    exact decide_eq_true five
  rw [budgeted_last_iff Known (fun acc => AtLeast level acc.overall)
    (fun payload => ranks level world ⟨.putflag, check.tick, payload⟩ = true) ?_ ?_ ?_
    (fresh_known flags) done, and_iff_right begun]
  · exact Iff.rfl
  · exact fun acc payload next _ => put_flag_known acc payload next
  · exact fun acc held => timeout_below low settings held
  · exact fun acc payload next _ held taken => graded_at_least high held taken (fun _ => rfl) fun _ => rfl

include high in
theorem get_flag_at_least {relatedTick payload : Int} {progress next : Progress}
    (done : getFlag world check relatedTick progress payload = .ok next) :
    AtLeast level next.overall ↔ AtLeast level progress.overall := by
  unfold getFlag at done
  split at done
  · rw [← Except.ok.inj done]
    exact Iff.rfl
  · obtain ⟨result, _, ⟨_, same⟩ | ⟨_, same⟩⟩ := judged_cases done
    · rw [same]
      exact Iff.rfl
    · rw [same]
      exact soften_at_least high result _

include low high in
theorem get_flags_at_least {put got : Progress} (known : Known put)
    (done : getFlags settings world check put = .ok got) :
    AtLeast level got.overall ↔ AtLeast level put.overall ∧ ∀ relatedTick ∈ window check,
      inTime settings world (.row .getflag relatedTick) ∧
      ∀ payload ∈ intRange 0 (variants world check.service),
        inTime settings world (.task ⟨.getflag, relatedTick, payload⟩) := by
  refine budgeted_last_iff (fun acc : Progress => Known acc ∧ acc.flags = put.flags)
    (fun acc => AtLeast level acc.overall) _ ?_ ?_ ?_ ⟨known, rfl⟩ done
  · exact fun acc relatedTick next _ => get_flags_of_keeps acc relatedTick next
  · exact fun acc held => timeout_below low settings held.1
  · intro acc relatedTick next _ held taken
    rw [budgeted_last_iff (fun acc : Progress => Known acc ∧ acc.flags = put.flags)
      (fun acc => AtLeast level acc.overall) (fun _ => True) ?_ ?_ ?_ held taken]
    · simp only [and_true]
      exact Iff.rfl
    · exact fun acc payload next _ => get_flag_keeps relatedTick acc payload next
    · exact fun acc held => timeout_below low settings held.1
    · intro acc payload next _ _ last
      rw [and_true]
      exact get_flag_at_least high last

include low high in
theorem graded_tasks_at_least {method : Method} {count : Int} {progress last : Progress}
    (known : Known progress)
    (done : gradedTasks settings world check method count progress = .ok last) :
    AtLeast level last.overall ↔ AtLeast level progress.overall ∧ ∀ call ∈ tasks method check.tick count,
      inTime settings world (.task call) ∧ ranks level world call = true := by
  refine budgeted_last_iff Known (fun acc => AtLeast level acc.overall) _ ?_ ?_ ?_ known done
  · exact fun acc call next _ held done => judged_known (fun _ => held)
      (fun result => degrade_known held result) done
  · exact fun acc held => timeout_below low settings held
  · exact fun acc call next _ held taken => graded_at_least high held taken (fun _ => rfl) fun _ => rfl

include low high in
theorem get_noise_of_at_least {count relatedTick : Int} {progress last : Progress}
    (known : Known progress)
    (done : getNoiseOf settings world count progress relatedTick = .ok last) :
    AtLeast level last.overall ↔ AtLeast level progress.overall ∧
      ∀ call ∈ tasks .getnoise relatedTick count, inTime settings world (.task call) := by
  rw [budgeted_last_iff Known (fun acc => AtLeast level acc.overall) (fun _ => True) ?_ ?_ ?_ known done]
  · simp only [and_true]
    exact Iff.rfl
  · exact fun acc call next _ held done => judged_known (fun _ => held)
      (fun result => soften_known held result) done
  · exact fun acc held => timeout_below low settings held
  · intro acc call next _ _ taken
    rw [and_true]
    obtain ⟨result, _, ⟨_, same⟩ | ⟨_, same⟩⟩ := judged_cases taken
    · rw [same]
    · rw [same]
      exact soften_at_least high result acc

include low high in
theorem run_noise_at_least {progress noisy : Progress} (known : Known progress)
    (done : runNoise settings world check progress = .ok noisy) :
    AtLeast level noisy.overall ↔ AtLeast level progress.overall ∧
      (settings.noiseEnabled = true ∧ 0 < (serviceInfoFor world check.service).noiseVariants →
        (∀ call ∈ tasks .putnoise check.tick (serviceInfoFor world check.service).noiseVariants,
          inTime settings world (.task call) ∧ ranks level world call = true) ∧
        ∀ relatedTick ∈ window check, inTime settings world (.row .getnoise relatedTick) ∧
          ∀ call ∈ tasks .getnoise relatedTick (serviceInfoFor world check.service).noiseVariants,
            inTime settings world (.task call)) := by
  unfold runNoise at done
  dsimp only at done
  split at done
  · next runs =>
    rw [Bool.and_eq_true, decide_eq_true_eq] at runs
    rw [forall_prop_of_true runs]
    split at done
    · cases done
    · next put ran =>
      have knownPut : Known put := graded_tasks_keep .putnoise _ Known (fun _ => timeout_known settings)
        (fun _ result held => degrade_known held result) known ran
      rw [budgeted_last_iff Known (fun acc => AtLeast level acc.overall) _ ?_ ?_ ?_ knownPut done,
        graded_tasks_at_least low high known ran, and_assoc]
      · exact Iff.rfl
      · exact fun acc relatedTick next _ held taken =>
          get_noise_of_keep _ Known (fun _ => timeout_known settings)
          (fun _ result held => soften_known held result) relatedTick held taken
      · exact fun acc held => timeout_below low settings held
      · exact fun acc relatedTick next _ held taken => get_noise_of_at_least low high held taken
  · next skips =>
    rw [Bool.and_eq_true, decide_eq_true_eq] at skips
    rw [← Except.ok.inj done, forall_prop_of_false skips, and_true]

include low high in
theorem run_havoc_at_least {progress last : Progress} (known : Known progress)
    (done : runHavoc settings world check progress = .ok last) :
    AtLeast level last.overall ↔ AtLeast level progress.overall ∧
      (settings.havocEnabled = true ∧ 0 < (serviceInfoFor world check.service).havocVariants →
        ∀ call ∈ tasks .havoc check.tick (serviceInfoFor world check.service).havocVariants,
          inTime settings world (.task call) ∧ ranks level world call = true) := by
  unfold runHavoc at done
  dsimp only at done
  split at done
  · next runs =>
    rw [Bool.and_eq_true, decide_eq_true_eq] at runs
    rw [forall_prop_of_true runs]
    exact graded_tasks_at_least low high known done
  · next skips =>
    rw [Bool.and_eq_true, decide_eq_true_eq] at skips
    rw [← Except.ok.inj done, forall_prop_of_false skips, and_true]

include low high in
/-- The recorded status says how well the whole run went. -/
theorem run_at_least {table : FlagTable} {outcome : Outcome}
    (done : runChecksFor env settings world check flags = .ok (table, outcome)) :
    AtLeast level outcome.status ↔ Holds level settings world check := by
  obtain ⟨put, got, noisy, last, putDone, gotDone, noisyDone, lastDone, rfl⟩ := run_checks_cases done
  have knownPut := put_flags_known putDone
  obtain ⟨knownGot, _⟩ := get_flags_keeps knownPut gotDone
  have knownNoisy := run_noise_known knownGot noisyDone
  rw [run_havoc_at_least low high knownNoisy lastDone, run_noise_at_least low high knownGot noisyDone,
    get_flags_at_least low high knownPut gotDone, put_flags_at_least low high putDone]
  constructor
  · rintro ⟨⟨⟨puts, gets⟩, noise⟩, havoc⟩
    exact ⟨puts, gets, noise, havoc⟩
  · rintro ⟨puts, gets, noise, havoc⟩
    exact ⟨⟨⟨puts, gets⟩, noise⟩, havoc⟩

end Level

/-! The entries of flag_avail. -/

theorem mem_cells_reached (cell : Int × Int) : cell ∈ cellsReached settings world check ↔
    cell.1 ∈ rowsReached settings world check ∧ cell.2 ∈ getsReached settings world check cell.1 := by
  simp only [cellsReached, List.mem_flatMap, List.mem_map]
  constructor
  · rintro ⟨relatedTick, row, payload, task, rfl⟩
    exact ⟨row, task⟩
  · exact fun both => ⟨cell.1, both.1, cell.2, both.2, rfl⟩

theorem earlier_cell {cell : Int × Int} (member : cell ∈ cellsReached settings world check) :
    cell.1 ≠ check.tick := by
  have row := reached_sub ((mem_cells_reached cell).mp member).1
  have bounds := (mem_int_range _ _ _).mp row
  omega

theorem run_cells {table : FlagTable} {outcome : Outcome}
    (done : runChecksFor env settings world check flags = .ok (table, outcome)) (cell : Int × Int) :
    outcome.flagAvail.get? cell =
      if cell ∈ cellsReached settings world check then some
      (availOf (there settings world check flags cell))
      else if cell.1 = check.tick ∧ cell.2 ∈ putsReached settings world check then
        some (availOf (answersOk world ⟨.putflag, check.tick, cell.2⟩))
      else none := by
  obtain ⟨put, got, noisy, last, putDone, gotDone, noisyDone, lastDone, rfl⟩ := run_checks_cases done
  have same : last.flagAvail = got.flagAvail := (run_havoc_avail lastDone).trans (run_noise_avail noisyDone)
  have looked : ((rowsReached settings world check).any fun relatedTick =>
        (getsReached settings world check relatedTick).any fun payload =>
          isCell relatedTick payload cell) = true ↔
      cell ∈ cellsReached settings world check := by
    rw [mem_cells_reached, List.any_eq_true]
    constructor
    · rintro ⟨relatedTick, row, task⟩
      obtain ⟨rfl, payload⟩ := (any_cell _ _ _).mp task
      exact ⟨row, payload⟩
    · exact fun both => ⟨cell.1, both.1, (any_cell _ _ _).mpr ⟨rfl, both.2⟩⟩
  rw [same, get_flags_cells (put_flags_known putDone) rfl gotDone cell,
    put_flags_cells putDone cell, getAvail, put_flags_rows putDone]
  exact if_congr looked rfl (if_congr (any_cell _ _ _) rfl rfl)

/-- A light over the entries of some ticks, where flag_avail tells of these cells and no others. -/
theorem entries_of_cells {avail : Dict (Int × Int) FlagAvail} {mine : Int × Int → Bool}
    {cells : List (Int × Int)} {good : Int × Int → Bool} (inside : ∀ cell ∈ cells, mine cell = true)
    (exact : ∀ cell, mine cell = true →
      avail.get? cell = if cell ∈ cells then some (availOf (good cell)) else none) :
    (((avail.entries.filter fun entry => mine entry.1).map (·.2) = []) ↔ cells = []) ∧
      ((∀ value ∈ (avail.entries.filter fun entry => mine entry.1).map (·.2), value = .ok) ↔
        ∀ cell ∈ cells, good cell = true) := by
  have member (cell : Int × Int) (value : FlagAvail) :
      (cell, value) ∈ avail.entries.filter (fun entry => mine entry.1) ↔
      cell ∈ cells ∧ value = availOf (good cell) := by
    rw [List.mem_filter, Dict.mem_entries_iff]
    constructor
    · rintro ⟨found, isMine⟩
      rw [exact cell isMine] at found
      split at found
      · next here => exact ⟨here, (Option.some.inj found).symm⟩
      · cases found
    · rintro ⟨here, rfl⟩
      refine ⟨?_, inside cell here⟩
      rw [exact cell (inside cell here), if_pos here]
  constructor
  · rw [List.map_eq_nil_iff, List.eq_nil_iff_forall_not_mem, List.eq_nil_iff_forall_not_mem]
    constructor
    · exact fun none cell here => none (cell, availOf (good cell)) ((member cell _).mpr ⟨here, rfl⟩)
    · exact fun none entry here => none entry.1 ((member entry.1 entry.2).mp here).1
  · constructor
    · intro all cell here
      have value := all _ (List.mem_map_of_mem ((member cell _).mpr ⟨here, rfl⟩))
      exact (avail_ok_iff _).mp (congrArg some value)
    · intro all value here
      obtain ⟨entry, found, rfl⟩ := List.mem_map.mp here
      obtain ⟨cell, isValue⟩ := (member entry.1 entry.2).mp found
      rw [isValue, all entry.1 cell]
      rfl

theorem entries_status_ok (overall : CheckerStatus) (entries : List FlagAvail) :
    entriesStatus overall entries = .ok ↔ entries ≠ [] ∧ ∀ value ∈ entries, value = .ok := by
  unfold entriesStatus
  by_cases some : entries ≠ []
  · have all : (entries.all fun value => decide (value = .ok)) = true ↔ ∀ value ∈ entries, value = .ok := by
      simp only [List.all_eq_true, decide_eq_true_eq]
    rw [if_pos some, and_iff_right some, ← all]
    split
    · next fine => exact iff_of_true rfl fine
    · next other => exact iff_of_false (by decide) other
  · rw [if_neg some]
    refine iff_of_false ?_ fun both => some both.1
    split <;> decide

theorem entries_status_idle (overall : CheckerStatus) (entries : List FlagAvail) :
    entriesStatus overall entries = .idle ↔ entries = [] ∧ hardDown overall = false := by
  unfold entriesStatus
  by_cases some : entries ≠ []
  · rw [if_pos some]
    refine iff_of_false ?_ fun both => some both.1
    split <;> decide
  · rw [if_neg some, and_iff_right (not_not.mp some)]
    cases hardDown overall <;> decide

/-! The lights of a run. -/

section Lights
variable {table : FlagTable} {outcome : Outcome}
    (done : runChecksFor env settings world check flags = .ok (table, outcome))
include done

theorem put_light : (lights check outcome).1 = .ok ↔ PutsOk settings world check := by
  have inside : ∀ cell ∈ (putsReached settings world check).map (fun payload => (check.tick, payload)),
      decide (cell.1 = check.tick) = true := by
    intro cell member
    obtain ⟨payload, _, rfl⟩ := List.mem_map.mp member
    exact decide_eq_true rfl
  have told : ∀ cell : Int × Int, decide (cell.1 = check.tick) = true → outcome.flagAvail.get? cell =
      if cell ∈ (putsReached settings world check).map (fun payload => (check.tick, payload)) then
        some (availOf (answersOk world ⟨.putflag, check.tick, cell.2⟩)) else none := by
    intro cell now
    have here := of_decide_eq_true now
    rw [run_cells done, if_neg fun earlier => earlier_cell earlier here]
    refine if_congr ?_ rfl rfl
    rw [List.mem_map]
    constructor
    · exact fun both => ⟨cell.2, both.2, Prod.ext here.symm rfl⟩
    · rintro ⟨payload, member, rfl⟩
      exact ⟨rfl, member⟩
  obtain ⟨none, all⟩ := entries_of_cells inside told
  show entriesStatus _ _ = .ok ↔ _
  rw [entries_status_ok, PutsOk]
  refine and_congr (not_congr (none.trans List.map_eq_nil_iff)) (all.trans ?_)
  rw [List.forall_mem_map]

theorem get_values :
    ((outcome.flagAvail.entries.filter fun entry => decide (entry.1.1 ≠ check.tick)).map (·.2) = [] ↔
      cellsReached settings world check = []) ∧
    ((∀ value ∈ (outcome.flagAvail.entries.filter fun entry =>
        decide (entry.1.1 ≠ check.tick)).map (·.2), value = .ok) ↔
      ∀ cell ∈ cellsReached settings world check, there settings world check flags cell = true) := by
  refine entries_of_cells (fun cell member => decide_eq_true (earlier_cell member)) fun cell earlier => ?_
  rw [run_cells done]
  refine if_congr Iff.rfl rfl (if_neg fun now => of_decide_eq_true earlier now.1)

theorem get_light : (lights check outcome).2.1 = .ok ↔ GetsOk settings world check flags := by
  obtain ⟨none, all⟩ := get_values done
  show entriesStatus _ _ = .ok ↔ _
  rw [entries_status_ok, GetsOk]
  exact and_congr (not_congr none) all

theorem status_known : statusRank outcome.status ≠ none := by
  obtain ⟨put, got, noisy, last, putDone, gotDone, noisyDone, lastDone, rfl⟩ := run_checks_cases done
  have knownNoisy := run_noise_known (get_flags_keeps (put_flags_known putDone) gotDone).1 noisyDone
  unfold runHavoc at lastDone
  dsimp only at lastDone
  split at lastDone
  · exact graded_tasks_keep .havoc _ Known (fun _ => timeout_known settings)
      (fun _ result held => degrade_known held result) knownNoisy lastDone
  · rw [← Except.ok.inj lastDone]
    exact knownNoisy

theorem up_iff :
    ["SUCCESS", "RECOVERING"].contains (upperText outcome.status) = true ↔
      Holds 4 settings world check := by
  rw [← run_at_least (by omega) (by omega) done]
  have known := status_known done
  cases status : outcome.status with
  | other text => exact absurd (by rw [status]; rfl) known
  | _ => decide

theorem down_iff : hardDown outcome.status = false ↔ Holds 3 settings world check := by
  rw [← run_at_least (by omega) (by omega) done]
  have known := status_known done
  cases status : outcome.status with
  | other text => exact absurd (by rw [status]; rfl) known
  | _ => decide

theorem get_light_idle : (lights check outcome).2.1 = .idle ↔
    cellsReached settings world check = [] ∧ Holds 3 settings world check := by
  show entriesStatus _ _ = .idle ↔ _
  rw [entries_status_idle, down_iff done]
  exact and_congr (get_values done).1 Iff.rfl

theorem havoc_light_ok : (lights check outcome).2.2 = .ok ↔ Holds 4 settings world check := by
  rw [← up_iff done]
  show (if _ then _ else _) = _ ↔ _
  split
  · next up => exact iff_of_true rfl up
  · next down =>
    refine iff_of_false ?_ down
    split <;> decide

theorem havoc_light_fail : (lights check outcome).2.2 = .fail ↔ ¬ Holds 4 settings world check ∧
    PutsOk settings world check ∧
      (GetsOk settings world check flags ∨ cellsReached settings world check = [] ∧
        Holds 3 settings world check) := by
  rw [← up_iff done, ← put_light done, ← get_light done, ← get_light_idle done]
  show (if _ then _ else _) = _ ↔ _
  split
  · next up => exact iff_of_false (by decide) fun both => both.1 up
  · next down =>
    rw [and_iff_right down]
    split
    · next blamed => exact iff_of_true rfl blamed
    · next other => exact iff_of_false (by decide) other

end Lights

/-! Where the lights tell the truth. -/

theorem mem_reached_iff {α : Type} {point : α → Point} {items : List α} :
    (∀ item ∈ items, item ∈ reached settings world point items) ↔
      ∀ item ∈ items, inTime settings world (point item) := by
  constructor
  · intro all item member
    have timely := List.mem_takeWhile_imp (all item member)
    exact (Bool.not_eq_true' _).mp timely
  · intro timely item member
    rw [reached_all timely]
    exact member

theorem puts_whole_iff (okay : PutsOk settings world check) :
    (∀ payload ∈ intRange 0 (variants world check.service),
      payload ∈ putsReached settings world check ∧ answersOk world ⟨.putflag, check.tick, payload⟩ = true) ↔
      ∀ payload ∈ intRange 0 (variants world check.service),
      inTime settings world (.task ⟨.putflag, check.tick, payload⟩) := by
  rw [← mem_reached_iff]
  constructor
  · exact fun all payload inside => (all payload inside).1
  · exact fun all payload inside => ⟨all payload inside, okay.2 payload (all payload inside)⟩

theorem gets_whole_iff (okay : GetsOk settings world check flags) :
    (∀ relatedTick ∈ window check, ∀ payload ∈ intRange 0 (variants world check.service),
      (relatedTick, payload) ∈ cellsReached settings world check ∧
        there settings world check flags (relatedTick, payload) = true) ↔
      ∀ relatedTick ∈ window check, inTime settings world (.row .getflag relatedTick) ∧
        ∀ payload ∈ intRange 0 (variants world check.service),
        inTime settings world (.task ⟨.getflag, relatedTick, payload⟩) := by
  -- Some cell was reached, so there is a store to look at in each row.
  obtain ⟨first, rest, listed⟩ := List.exists_cons_of_ne_nil okay.1
  have some := (mem_cells_reached first).mp (listed ▸ List.mem_cons_self)
  have store := reached_sub some.2
  constructor
  · intro all
    have rows : ∀ relatedTick ∈ window check, relatedTick ∈ rowsReached settings world check :=
      fun relatedTick member =>
      ((mem_cells_reached _).mp (all relatedTick member first.2 store).1).1
    intro relatedTick member
    refine ⟨mem_reached_iff.mp rows relatedTick member, mem_reached_iff.mp fun payload inside => ?_⟩
    exact ((mem_cells_reached _).mp (all relatedTick member payload inside).1).2
  · intro timely relatedTick member payload inside
    have cell : (relatedTick, payload) ∈ cellsReached settings world check := by
      rw [mem_cells_reached]
      exact ⟨mem_reached_iff.mpr (fun relatedTick member => (timely relatedTick member).1)
        relatedTick member, mem_reached_iff.mpr (timely relatedTick member).2 payload inside⟩
    exact ⟨cell, okay.2 _ cell⟩

/-- The lights tell the truth exactly of the runs whose failures they can tell apart. -/
theorem lights_truthful_iff {table : FlagTable} {outcome : Outcome}
    (done : runChecksFor env settings world check flags = .ok (table, outcome)) :
    Truthful settings world check flags outcome ↔ Separate settings world check flags := by
  have blamed : (∃ call ∈ havocsReached settings world check, answersOk world call = false) ↔
      ¬ HavocsOk settings world check := by
    simp only [HavocsOk, not_forall, exists_prop, Bool.not_eq_true]
  constructor
  · rintro ⟨havocFail, havocOk, put, get⟩
    rw [havoc_light_fail done, blamed] at havocFail
    refine ⟨?_, ?_, ?_, ?_⟩
    · exact fun okay => (puts_whole_iff okay).mp (put ((put_light done).mpr okay))
    · exact fun okay => (gets_whole_iff okay).mp (get ((get_light done).mpr okay))
    · intro puts gets fine
      by_contra down
      exact havocFail ⟨down, puts, gets⟩ fine
    · exact fun up => havocOk ((havoc_light_ok done).mpr up)
  · rintro ⟨putsWhole, getsWhole, onlyHavoc, plainHavoc⟩
    refine ⟨?_, ?_, ?_, ?_⟩
    · rw [havoc_light_fail done, blamed]
      rintro ⟨down, puts, gets⟩ fine
      exact down (onlyHavoc puts gets fine)
    · exact fun light => plainHavoc ((havoc_light_ok done).mp light)
    · intro light
      have okay := (put_light done).mp light
      exact (puts_whole_iff okay).mpr (putsWhole okay)
    · intro light
      have okay := (get_light done).mp light
      exact (gets_whole_iff okay).mpr (getsWhole okay)

/-- A service that has broken one kind of task. -/
def brokenWorld (method : Method) : World where
  info := some ⟨"svc1", 1, 1, 1⟩
  response := fun call => .answer (some (if call.method = method then "MUMBLE" else "OK")) none none
  expired := fun _ => false

def firstTick : Check where
  teamId := 2
  service := ⟨1, "svc1", 1, 1⟩
  tick := 1
  roundId := 1
  expiresAt := 1120000000
  retention := 5
  roundIdForTick := fun _ => none

theorem broken_havoc_told : ∃ table outcome,
    runChecksFor (defaultSettings fun _ => []) ⟨none, true, true⟩
    (brokenWorld .havoc) firstTick Dict.empty = .ok (table, outcome) ∧
      lights firstTick outcome = (.ok, .idle, .fail) ∧
      Truthful ⟨none, true, true⟩ (brokenWorld .havoc) firstTick Dict.empty outcome := by
  have done : runChecksFor (defaultSettings fun _ => []) ⟨none, true, true⟩
      (brokenWorld .havoc) firstTick Dict.empty = .ok (_, _) := rfl
  refine ⟨_, _, done, by decide, (lights_truthful_iff done).mpr ⟨?_, ?_, ?_, ?_⟩⟩
  · exact fun _ _ _ => rfl
  · exact fun _ _ _ => ⟨rfl, fun _ _ => rfl⟩
  · intro _ _ fine
    exact absurd (fine ⟨.havoc, 1, 0⟩ (by decide)) (by decide)
  · intro up
    exact absurd (up.havoc (by decide) ⟨.havoc, 1, 0⟩ (by decide)).2 (by decide)

/-- Noise that cannot be stored is shown as a HAVOC failure. -/
theorem broken_noise_blames_havoc : ∃ table outcome,
    runChecksFor (defaultSettings fun _ => []) ⟨none, true, true⟩
    (brokenWorld .putnoise) firstTick Dict.empty = .ok (table, outcome) ∧
      lights firstTick outcome = (.ok, .idle, .fail) ∧
      havocsReached ⟨none, true, true⟩ (brokenWorld .putnoise) firstTick = [⟨.havoc, 1, 0⟩] ∧
      answersOk (brokenWorld .putnoise) ⟨.havoc, 1, 0⟩ = true ∧
      ¬ Truthful ⟨none, true, true⟩ (brokenWorld .putnoise) firstTick Dict.empty outcome := by
  refine ⟨_, _, rfl, by decide, by decide, by decide, fun truthful => ?_⟩
  obtain ⟨call, sent, wrong⟩ := truthful.havocFail (by decide)
  have only : call = ⟨.havoc, 1, 0⟩ := List.mem_singleton.mp sent
  rw [only] at wrong
  cases wrong

end KosSim.StatusLights
