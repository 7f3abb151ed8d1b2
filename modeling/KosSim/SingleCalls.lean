import KosSim.AnsweredFlags
import KosSim.FlagBatches

/-!
The HTTP endpoint hands a whole list to submit_flags, the TCP server makes one call for
each line. A batch counts its accepted flags in a variable, while a call of its own
counts the accepted rows of the current round: a flag of an older tick counts in the
batch only. And a batch is one transaction, so an entry that cannot be stored takes the
others with it.
-/

namespace KosSim.SingleCalls
open Library Schema FlagCrypto FlagSubmit AdminTeams Platform SubmitSessions FlagBatches

section Calls
variable (env : Settings) (now teamId : Int) (sourceIp : String)

/-- What a call leaves and answers. A call that raises is rolled back. -/
def call (db : Db) (flags : List Text) : Db × List ResultRow :=
  match submitFlags env db now teamId flags sourceIp true with
  | .ok (after, .done response) => (after, response.results)
  | .ok (after, .offline _) => (after, [])
  | .error _ => (db, [])

/-- One call for each flag, in order. -/
def calls (db : Db) : List Text → Db × List ResultRow
  | [] => (db, [])
  | flag :: rest =>
      let first := call env now teamId sourceIp db [flag]
      let others := calls first.1 rest
      (others.1, first.2 ++ others.2)

end Calls

def mark (row : ResultRow) : SubmitStatus × Int × Bool := (row.status, row.pointsAwarded, row.isFirstblood)

/-- The batch and the calls give the same statuses, points and first bloods, and leave the same rows. -/
def Agree (env : Settings) (now teamId : Int) (sourceIp : String) (db : Db) (flags : List Text) : Prop :=
  (call env now teamId sourceIp db flags).2.map mark = (calls env now teamId sourceIp db flags).2.map mark ∧
    (call env now teamId sourceIp db flags).1.submissions =
      (calls env now teamId sourceIp db flags).1.submissions

/-! What the two depend on. -/

/-- The entries, stripped, of which there is no row when the loop comes to them. -/
def newFlags (stored : Text → Bool) : List Text → List Text
  | [] => []
  | rawFlag :: rest =>
      let flag := strip rawFlag
      if flag = [] ∨ stored flag = true then newFlags stored rest
      else flag :: newFlags (fun other => stored other || other = flag) rest

/-- Only the cap can refuse the flag. -/
def eligible (env : Settings) (db : Db) (teamId : Int) (info : FlagInfo) : Bool :=
  match db.teams.get? info.teamId, db.services.get? info.serviceId with
  | some target, some _ =>
      info.teamId ≠ teamId && !target.isNop && oldestAcceptableTick env (currentTick env db) ≤ info.tick &&
        info.tick ≤ currentTick env db
  | _, _ => false

def candidateOf (env : Settings) (db : Db) (teamId : Int) (flag : Text) : Option FlagInfo :=
  (decodeFlag env flag).filter (eligible env db teamId)

/-- The flags of the list over which the cap decides, in order. -/
def candidates (env : Settings) (db : Db) (teamId : Int) (stored : Text → Bool) (flags : List Text) :
    List FlagInfo :=
  (newFlags stored flags).filterMap (candidateOf env db teamId)

/-- The accepted row of the flag goes to the round. -/
def ownRound (db : Db) (roundId : Int) (info : FlagInfo) : Bool :=
  (db.roundOfTick info.tick).map (·.1) = some roundId

/-- There is no cap, or the candidates stay below it, or those up to it belong to the current round. -/
def CapAlike (env : Settings) (db : Db) (teamId roundId : Int) (flags : List Text) : Prop :=
  let room := (env.maxAcceptedPerRound - acceptedInRound db.submissions teamId roundId).toNat
  let open_ := candidates env db teamId (submitted db.submissions teamId) flags
  env.maxAcceptedPerRound ≤ 0 ∨ open_.length ≤ room ∨ ∀ info ∈ open_.take room,
    ownRound db roundId info = true

/-- If the batch commits, the cap has to act alike. If it does not, no entry must get through alone. -/
def Alike (env : Settings) (db : Db) (now teamId : Int) (flags : List Text) : Prop :=
  ∀ roundId, currentRoundId env db now = .ok roundId →
    (∀ flag ∈ nonBlank flags, storable env db teamId roundId flag) ∧ CapAlike env db teamId roundId flags ∨
      ∀ flag ∈ nonBlank flags, ¬storable env db teamId roundId flag

/-! Two counters under one limit. -/

/-- The decisions about the items are the same, when one counter is at `count` and counts every
admitted item, and the other is at `own` and counts only some. -/
def SameDecisions (limit count own : Int) (counted : List Bool) : Prop :=
  limit ≤ 0 ∨ limit ≤ own ∨ counted.length ≤ (limit - count).toNat ∨
    count = own ∧ ∀ item ∈ counted.take (limit - count).toNat, item = true

section Counters
variable {limit count own : Int} {item : Bool} {rest : List Bool}

theorem same_full (full : limit ≤ own) :
    SameDecisions limit count own (item :: rest) ↔ SameDecisions limit count own rest :=
  iff_of_true (Or.inr (Or.inl full)) (Or.inr (Or.inl full))

theorem same_admitted (room : limit ≤ 0 ∨ count < limit) (behind : own ≤ count) :
    SameDecisions limit count own (item :: rest) ↔
      SameDecisions limit (count + 1) (own + if item then 1 else 0) rest := by
  rcases room with unlimited | room
  · exact iff_of_true (Or.inl unlimited) (Or.inl unlimited)
  obtain ⟨left, more⟩ : ∃ left : Nat, (limit - count).toNat = left + 1 :=
    ⟨(limit - count).toNat - 1, by omega⟩
  have less : (limit - (count + 1)).toNat = left := by omega
  unfold SameDecisions
  rw [more, less, List.length_cons, List.take_succ_cons, List.forall_mem_cons]
  cases item with
  | true =>
      by_cases last : limit ≤ own + 1
      · have none_ : left = 0 := by omega
        have level : count = own := by omega
        refine iff_of_true (Or.inr (Or.inr (Or.inr ⟨level, rfl, ?_⟩))) (Or.inr (Or.inl last))
        rw [none_, List.take_zero]
        exact List.forall_mem_nil _
      · grind
  | false => grind

/-- The first counter is full, the second is not. -/
theorem different_decision (limited : 0 < limit) (full : limit ≤ count) (room : own < limit) :
    ¬SameDecisions limit count own (item :: rest) := by
  unfold SameDecisions
  rw [List.length_cons]
  omega

end Counters

/-! One pass of the batch, and the call with the same flag. -/

def nobody : Int × Int → Bool := fun _ => false

/-- The loop of a call at its start, when its counter has read `count`. -/
def begun (count : Int) : Progress := ⟨count, 0, 0, [], [], []⟩

def withRows (db : Db) (rows : List Submission) : Db := { db with submissions := rows }

@[simp] theorem rows_with (db : Db) (rows : List Submission) : (withRows db rows).submissions = rows := rfl

@[simp] theorem round_with (db : Db) (rows : List Submission) (tick : Int) :
    (withRows db rows).roundOfTick tick = db.roundOfTick tick := rfl

@[simp] theorem refs_with (db : Db) (rows : List Submission) (row : Submission) :
    submissionRefs (withRows db rows) row = submissionRefs db row := rfl

@[simp] theorem pending_begun (count : Int) : (begun count).pending = [] := rfl

@[simp] theorem keys_begun (count : Int) : (begun count).firstbloodKeys = [] := rfl

def shown (next : Progress) : List Submission × List ResultRow := (next.pending, next.resultRows)

def limited (env : Settings) (count : Int) : Prop :=
  0 < env.maxAcceptedPerRound ∧ env.maxAcceptedPerRound ≤ count

/-- The strings of which there is a row after the entry. -/
def seen (stored : Text → Bool) (rawFlag : Text) (other : Text) : Bool :=
  stored other || (strip rawFlag ≠ [] && other = strip rawFlag)

instance (env : Settings) (count : Int) : Decidable (limited env count) :=
  inferInstanceAs (Decidable (_ ∧ _))

section Pass
variable {env : Settings} {db : Db} {context : Context} {rawFlag : Text}

/-- What the context of a call has read. -/
structure Reads (env : Settings) (db : Db) (context : Context) : Prop where
  tick : context.tickNow = currentTick env db
  teams : context.teamMeta = db.teams
  services : context.serviceMeta = db.services

theorem insert_shift (env : Settings) (db : Db) (pending : List Submission) (row : Submission) :
    insertSubmission env db pending row =
      (insertSubmission env (withRows db (db.submissions ++ pending)) [] row).map (pending ++ ·) := by
  simp only [insertSubmission, rows_with, refs_with, List.append_nil]
  split
  · rfl
  split
  · rfl
  split
  · next refs => simp [refs, Except.map]
  · next refs => simp [refs, Except.map]

theorem firstblood_shift (db : Db) (progress : Progress) (targetTeamId serviceId count : Int) :
    (resolveFirstblood db nobody progress targetTeamId serviceId).1 =
      (resolveFirstblood (withRows db (db.submissions ++ progress.pending)) nobody (begun count)
        targetTeamId serviceId).1 := by
  simp only [resolveFirstblood, nobody, rows_with, pending_begun, List.append_nil, Bool.false_eq_true,
    ↓reduceIte]

/-- A pass does not see whether the rows before it are committed. -/
theorem pass_shift (env : Settings) (db : Db) (context : Context) (progress : Progress) (rawFlag : Text) :
    (processFlag env db nobody context progress rawFlag).map shown =
      (processFlag env (withRows db (db.submissions ++ progress.pending)) nobody context
        (begun progress.acceptedThisRound) rawFlag).map fun next =>
          (progress.pending ++ next.pending, progress.resultRows ++ next.resultRows) := by
  simp only [processFlag, rows_with, pending_begun, List.append_nil]
  split
  · simp [shown, begun, Except.map]
  split
  · rfl
  split
  · simp [shown, begun, Except.map]
  split
  · simp only [processInvalid, insert_shift env db, pending_begun]
    cases insertSubmission env (withRows db (db.submissions ++ progress.pending)) [] _ with
    | error error => rfl
    | ok rows => rfl
  · next info decoded =>
    have status : classify env context (begun progress.acceptedThisRound) info =
        classify env context progress info := rfl
    have blood : (if classify env context progress info = .accepted then
          resolveFirstblood (withRows db (db.submissions ++ progress.pending)) nobody
            (begun progress.acceptedThisRound)
            info.teamId info.serviceId else (false, (begun progress.acceptedThisRound).firstbloodKeys)).1 =
        (if classify env context progress info = .accepted then
          resolveFirstblood db nobody progress info.teamId info.serviceId else (false,
            progress.firstbloodKeys)).1 := by
      split
      · exact (firstblood_shift db progress _ _ _).symm
      · rfl
    simp only [processDecoded, insert_shift env db, pending_begun, status, blood, round_with]
    cases insertSubmission env (withRows db (db.submissions ++ progress.pending)) [] _ with
    | error error => rfl
    | ok rows => rfl

theorem classify_eligible (reads : Reads env db context) {progress : Progress} {info : FlagInfo}
    (open_ : eligible env db context.submitterId info = true) :
    classify env context progress info =
      if 0 < env.maxAcceptedPerRound ∧ env.maxAcceptedPerRound ≤
        progress.acceptedThisRound then .roundLimit else .accepted := by
  unfold eligible at open_
  unfold classify
  rw [reads.teams, reads.services, reads.tick]
  cases known : db.teams.get? info.teamId with
  | none => rw [known] at open_; cases open_
  | some target =>
      cases served : db.services.get? info.serviceId with
      | none => rw [known, served] at open_; cases open_
      | some service =>
          rw [known, served] at open_
          simp only [Bool.and_eq_true, decide_eq_true_eq, Bool.not_eq_true', ne_eq] at open_
          obtain ⟨⟨⟨foreign, playing⟩, oldest⟩, newest⟩ := open_
          simp only [foreign, playing, Int.not_lt.mpr oldest, Int.not_lt.mpr newest, Bool.false_eq_true,
            ↓reduceIte]

theorem classify_refused (reads : Reads env db context) (progress other : Progress)
    {info : FlagInfo} (refused : eligible env db context.submitterId info = false) :
    classify env context progress info = classify env context other info ∧
      classify env context progress info ≠ .accepted := by
  unfold eligible at refused
  unfold classify
  rw [reads.teams, reads.services, reads.tick]
  cases known : db.teams.get? info.teamId with
  | none => exact ⟨rfl, by simp⟩
  | some target =>
      cases served : db.services.get? info.serviceId with
      | none => exact ⟨rfl, by simp⟩
      | some service =>
          rw [known, served] at refused
          dsimp only at refused ⊢
          by_cases own : info.teamId = context.submitterId
          · simp [own]
          by_cases nop : target.isNop = true
          · simp [own, nop]
          by_cases old : info.tick < oldestAcceptableTick env (currentTick env db)
          · simp [own, nop, old]
          by_cases future : currentTick env db < info.tick
          · simp [own, nop, old, future]
          simp [own, nop, Int.not_lt.mp old, Int.not_lt.mp future] at refused

/-- The flag of the pass, if the cap decides about it. -/
def nextCandidate (env : Settings) (db : Db) (teamId : Int) (stored : Text → Bool) (rawFlag : Text) :
    Option FlagInfo :=
  if strip rawFlag = [] ∨ stored (strip rawFlag) =
    true then none else candidateOf env db teamId (strip rawFlag)

theorem next_candidate {teamId : Int} {stored : Text → Bool} {info : FlagInfo} :
    nextCandidate env db teamId stored rawFlag = some info ↔
      strip rawFlag ≠ [] ∧ stored (strip rawFlag) = false ∧ decodeFlag env (strip rawFlag) = some info ∧
        eligible env db teamId info = true := by
  unfold nextCandidate candidateOf
  split
  · next skipped =>
    constructor
    · intro never
      cases never
    · rintro ⟨something, fresh, _⟩
      rcases skipped with nothing | old
      · exact absurd nothing something
      · rw [old] at fresh
        cases fresh
  · next taken =>
    rw [not_or, Bool.not_eq_true] at taken
    rw [Option.filter_eq_some_iff]
    exact ⟨fun found => ⟨taken.1, taken.2, found⟩, fun found => found.2.2⟩

theorem pass_same (reads : Reads env db context) (count other : Int)
    (same : ∀ info, nextCandidate env db context.submitterId
      (submitted db.submissions context.submitterId) rawFlag = some info →
      (limited env count ↔ limited env other)) :
    (processFlag env db nobody context (begun count) rawFlag).map shown =
      (processFlag env db nobody context (begun other) rawFlag).map shown := by
  simp only [processFlag, pending_begun, List.append_nil]
  split
  · rfl
  next something =>
  split
  · rfl
  split
  · rfl
  next fresh =>
  split
  · unfold processInvalid
    dsimp only [pending_begun]
    cases insertSubmission env db [] _ with
    | error error => rfl
    | ok rows => rfl
  · next info decoded =>
    have status : classify env context (begun count) info = classify env context (begun other) info := by
      cases open_ : eligible env db context.submitterId info with
      | false => exact (classify_refused reads _ _ open_).1
      | true =>
          have alike :=
            same info (next_candidate.mpr ⟨something, Bool.not_eq_true _ ▸ fresh, decoded, open_⟩)
          rw [classify_eligible reads open_, classify_eligible reads open_]
          exact if_congr alike rfl rfl
    have blood : (if classify env context (begun other) info = .accepted then
          resolveFirstblood db nobody (begun count) info.teamId info.serviceId else (false, [])) =
        if classify env context (begun other) info = .accepted then
          resolveFirstblood db nobody (begun other) info.teamId info.serviceId else (false, []) := rfl
    simp only [processDecoded, status, pending_begun, keys_begun, blood]
    cases insertSubmission env db [] _ with
    | error error => rfl
    | ok rows => rfl

/-- The rows after the pass are those before it and, unless the entry is blank, one of its string. -/
theorem pass_stored {progress next : Progress}
    (done : processFlag env db nobody context progress rawFlag = .ok next) :
    submitted (db.submissions ++ next.pending) context.submitterId =
      seen (submitted (db.submissions ++ progress.pending) context.submitterId) rawFlag := by
  funext other
  unfold seen
  rcases AnsweredFlags.pass_answers done with
    ⟨nothing, same⟩ | ⟨row, _, _, _, ⟨same, old⟩ | ⟨inserted, grown, identity⟩⟩
  · simp [same, nothing]
  · rw [same]
    by_cases here : other = strip rawFlag
    · rw [here, old, Bool.true_or]
    · simp [here]
  · have something : strip rawFlag ≠ [] := by
      intro nothing
      rw [processFlag, nothing] at done
      cases done
      simp at grown
    rw [grown, ← List.append_assoc, submitted_append]
    congr 1
    have one : submitted [inserted] context.submitterId other = true ↔ other = strip rawFlag := by
      rw [submitted_iff, List.map_singleton, List.mem_singleton, identity, Prod.mk.injEq]
      exact and_iff_right rfl
    rw [Bool.eq_iff_iff, one]
    simp [something]

theorem candidates_cons (teamId : Int) (stored : Text → Bool) (rest : List Text) :
    candidates env db teamId stored (rawFlag :: rest) =
      (nextCandidate env db teamId stored rawFlag).toList ++
      candidates env db teamId (seen stored rawFlag) rest := by
  unfold candidates nextCandidate
  rw [newFlags]
  split
  · next skipped =>
    have same : seen stored rawFlag = stored := by
      funext other
      unfold seen
      rcases skipped with nothing | old
      · simp [nothing]
      · by_cases here : other = strip rawFlag
        · rw [here, old, Bool.true_or]
        · simp [here]
    rw [same]
    rfl
  · next taken =>
    have same : seen stored rawFlag = fun other => stored other || other = strip rawFlag := by
      funext other
      simp [seen, (not_or.mp taken).1]
    rw [same, List.filterMap_cons]
    cases candidateOf env db teamId (strip rawFlag) with
    | none => rfl
    | some info => rfl

theorem wanted_candidate (reads : Reads env db context) {progress : Progress} :
    wantedFlag env db context progress rawFlag =
      if limited env progress.acceptedThisRound then none
      else (nextCandidate env db context.submitterId
        (submitted (db.submissions ++ progress.pending) context.submitterId)
        rawFlag).map fun info => (strip rawFlag, info) := by
  unfold wantedFlag nextCandidate candidateOf
  dsimp only
  by_cases nothing : strip rawFlag = []
  · simp [nothing]
  cases stored : submitted (db.submissions ++ progress.pending) context.submitterId (strip rawFlag) with
  | true => simp
  | false =>
      cases decodeFlag env (strip rawFlag) with
      | none => simp [nothing]
      | some info =>
          cases open_ : eligible env db context.submitterId info with
          | false => simp [nothing, open_, (classify_refused reads progress progress open_).2]
          | true =>
              have status : classify env context progress info =
                  if limited env progress.acceptedThisRound then .roundLimit else .accepted :=
                  classify_eligible reads open_
              by_cases full : limited env progress.acceptedThisRound
              · simp [full, status]
              · simp [nothing, full, open_, status]

/-- The answer about a candidate is the decision about the cap. -/
theorem pass_decides (reads : Reads env db context) {progress next : Progress} {info : FlagInfo}
    (open_ : nextCandidate env db context.submitterId
      (submitted (db.submissions ++ progress.pending) context.submitterId) rawFlag = some info)
    (done : processFlag env db nobody context progress rawFlag = .ok next) :
    ∃ row, next.resultRows = progress.resultRows ++ [row] ∧
      row.status = if limited env progress.acceptedThisRound then .roundLimit else .accepted := by
  obtain ⟨something, fresh, decoded, fits⟩ := next_candidate.mp open_
  unfold processFlag at done
  dsimp only at done
  rw [if_neg something, (decoded_plain decoded).1, fresh, decoded] at done
  simp only [Bool.false_eq_true, ↓reduceIte, processDecoded] at done
  split at done
  · cases done
  · cases done
    exact ⟨_, rfl, classify_eligible reads fits⟩

/-- The two counters after a pass. -/
theorem pass_counts (reads : Reads env db context) (roundId : Int) {progress next : Progress}
    (done : processFlag env db nobody context progress rawFlag = .ok next) :
    let decided := nextCandidate env db context.submitterId
      (submitted (db.submissions ++ progress.pending) context.submitterId) rawFlag
    let admitted := if limited env progress.acceptedThisRound then none else decided
    next.acceptedThisRound = progress.acceptedThisRound + (if admitted.isSome then 1 else 0) ∧
      acceptedInRound (db.submissions ++ next.pending) context.submitterId roundId =
        acceptedInRound (db.submissions ++ progress.pending) context.submitterId roundId +
          (if admitted.any (ownRound db roundId) then 1 else 0) := by
  intro decided admitted
  have wanted : wantedFlag env db context progress rawFlag = admitted.map fun info =>
      (strip rawFlag, info) := by
    rw [wanted_candidate reads]
    dsimp only [admitted, decided]
    split <;> rfl
  rcases pass_cases done with ⟨refused, counter, _, rows⟩ | ⟨flag, info, row, accepted, counter,
    grown, added⟩
  · have none_ : admitted = none := by
      rw [refused] at wanted
      exact Option.map_eq_none_iff.mp wanted.symm
    rw [none_, counter]
    refine ⟨(Int.add_zero _).symm, ?_⟩
    rcases rows with same | ⟨row, grown, status⟩
    · rw [same]
      exact (Int.add_zero _).symm
    · rw [grown, ← List.append_assoc, RoundCap.accepted_append]
      congr 1
      simp [acceptedInRound, status]
  · rw [accepted] at wanted
    obtain ⟨same, admits, pair⟩ := Option.map_eq_some_iff.mp wanted.symm
    obtain ⟨_, rfl⟩ := Prod.mk.inj pair
    rw [admits, counter]
    refine ⟨rfl, ?_⟩
    rw [grown, ← List.append_assoc, RoundCap.accepted_append]
    congr 1
    have counted :
        (decide (row.submitterTeamId = context.submitterId) && decide (row.roundId = some roundId) &&
        decide (row.result = .accepted)) = ownRound db roundId same := by
      rw [added.submitter, added.round, added.accepted]
      simp [ownRound]
    unfold acceptedInRound
    rw [List.countP_singleton, counted]
    exact Nat.cast_ite _ _ _

end Pass

/-! The list. -/

section Loop
variable {env : Settings} {now teamId : Int} {sourceIp : String} {db : Db}

/-- What a call reads before its loop does not depend on the submissions. -/
def contextOf (env : Settings) (now teamId roundId : Int) (name sourceIp : String) (db : Db) : Context :=
  ⟨teamId, name, sourceIp, now, currentTick env db, roundId, db.teams, db.services⟩

theorem reads_context (env : Settings) (now teamId roundId : Int) (name sourceIp : String) (db : Db) :
    Reads env db (contextOf env now teamId roundId name sourceIp db) := ⟨rfl, rfl, rfl⟩

/-- A call of an existing, non-NOP team while the game runs. -/
structure Calling (env : Settings) (now teamId roundId : Int) (db : Db) (team : Team) : Prop where
  running : gameRunning env db = true
  found : db.teams.get? teamId = some team
  playing : team.isNop = false
  round : currentRoundId env db now = .ok roundId

theorem call_loop {roundId : Int} {team : Team} (calling : Calling env now teamId roundId db team)
    (sourceIp : String) (flags : List Text) :
    call env now teamId sourceIp db flags =
      match flags.foldlM
      (processFlag env db nobody (contextOf env now teamId roundId team.name sourceIp db))
        (begun (acceptedInRound db.submissions teamId roundId)) with
      | .ok last => (withRows db (db.submissions ++ last.pending), last.resultRows)
      | .error _ => (db, []) := by
  have named : identify db teamId = .ok team.name := by
    simp only [identify, calling.found, calling.playing, Bool.false_eq_true, ↓reduceIte]
  have unfolded : submitFlags env db now teamId flags sourceIp true =
      (flags.foldlM (processFlag env db nobody (contextOf env now teamId roundId team.name sourceIp db))
        (begun (acceptedInRound db.submissions teamId roundId))).bind fun last =>
          .ok (withRows db (db.submissions ++ last.pending),
            .done (answer env (contextOf env now teamId roundId team.name sourceIp db) last)) := by
    simp only [submitFlags, calling.running, named, prepare, calling.round, Bool.not_true, Bool.and_false,
      Bool.false_eq_true, ↓reduceIte]
    rfl
  unfold call
  rw [unfolded]
  cases flags.foldlM (processFlag env db nobody (contextOf env now teamId roundId team.name sourceIp db))
    (begun (acceptedInRound db.submissions teamId roundId)) with
  | error error => rfl
  | ok last => rfl

theorem calling_rows {roundId : Int} {team : Team} (calling : Calling env now teamId roundId db team)
    (rows : List Submission) : Calling env now teamId roundId (withRows db rows) team :=
  ⟨calling.running, calling.found, calling.playing, calling.round⟩

theorem call_one {roundId : Int} {team : Team} {rows added : List Submission} {rawFlag : Text}
    {results : List ResultRow} (calling : Calling env now teamId roundId db team)
    (done : (processFlag env (withRows db rows) nobody
      (contextOf env now teamId roundId team.name sourceIp db)
      (begun (acceptedInRound rows teamId roundId)) rawFlag).map shown = .ok (added, results)) :
    call env now teamId sourceIp (withRows db rows) [rawFlag] = (withRows db (rows ++ added), results) := by
  have loop := call_loop (calling_rows calling rows) sourceIp [rawFlag]
  rw [loop, List.foldlM_cons]
  obtain ⟨next, passed, same⟩ := map_ok_iff.mp done
  obtain ⟨rfl, rfl⟩ := Prod.mk.inj same
  have passed_ : processFlag env (withRows db rows) nobody
      (contextOf env now teamId roundId team.name sourceIp (withRows db rows))
      (begun (acceptedInRound (withRows db rows).submissions teamId roundId)) rawFlag = .ok next := passed
  rw [passed_]
  rfl

theorem loop_extends {context : Context} {flags : List Text} {start last : Progress}
    (done : flags.foldlM (processFlag env db nobody context) start = .ok last) :
    ∃ more, last.resultRows = start.resultRows ++ more := by
  refine foldlM_keeps (fun acc => ∃ more, acc.resultRows = start.resultRows ++ more) ?_ ⟨[],
    (List.append_nil _).symm⟩ done
  rintro acc rawFlag next _ ⟨more, grown⟩ passed
  rcases AnsweredFlags.pass_answers passed with ⟨_, same⟩ | ⟨row, results, _⟩
  · exact ⟨more, same ▸ grown⟩
  · exact ⟨more ++ [row], by rw [results, grown, List.append_assoc]⟩

section Step
variable {roundId : Int} {team : Team} {rawFlag : Text} {progress next : Progress}

/-- The counter of a call that sees the rows of the batch so far. -/
def ownCount (db : Db) (teamId roundId : Int) (progress : Progress) : Int :=
  acceptedInRound (db.submissions ++ progress.pending) teamId roundId

def decided (env : Settings) (db : Db) (teamId : Int) (progress : Progress) (rawFlag : Text) :
    Option FlagInfo :=
  nextCandidate env db teamId (submitted (db.submissions ++ progress.pending) teamId) rawFlag

theorem single_alike (calling : Calling env now teamId roundId db team)
    (first : processFlag env db nobody (contextOf env now teamId roundId team.name sourceIp db)
      progress rawFlag = .ok next)
    (alike : ∀ info, decided env db teamId progress rawFlag = some info →
      (limited env progress.acceptedThisRound ↔ limited env (ownCount db teamId roundId progress))) :
    ∃ results, next.resultRows = progress.resultRows ++ results ∧
      call env now teamId sourceIp (withRows db (db.submissions ++ progress.pending)) [rawFlag] =
        (withRows db (db.submissions ++ next.pending), results) := by
  have shift := pass_shift env db (contextOf env now teamId roundId team.name sourceIp db) progress rawFlag
  rw [first] at shift
  obtain ⟨alone, passed, same⟩ := map_ok_iff.mp shift.symm
  obtain ⟨pending, results⟩ := Prod.mk.inj same
  refine ⟨alone.resultRows, results.symm, ?_⟩
  have grown : db.submissions ++ progress.pending ++ alone.pending = db.submissions ++ next.pending := by
    rw [List.append_assoc, pending]
  rw [← grown]
  apply call_one calling
  have reads :=
    reads_context env now teamId roundId team.name sourceIp
      (withRows db (db.submissions ++ progress.pending))
  have counted := pass_same reads progress.acceptedThisRound (ownCount db teamId roundId progress) alike
  exact counted.symm.trans (map_ok_iff.mpr ⟨alone, passed, rfl⟩)

theorem single_differs (calling : Calling env now teamId roundId db team)
    (first : processFlag env db nobody (contextOf env now teamId roundId team.name sourceIp db)
      progress rawFlag = .ok next)
    {info : FlagInfo} (open_ : decided env db teamId progress rawFlag = some info)
    (full : limited env progress.acceptedThisRound)
    (room : ¬limited env (ownCount db teamId roundId progress)) :
    ∃ row other after, next.resultRows = progress.resultRows ++ [row] ∧ row.status = .roundLimit ∧
      other.status = .accepted ∧
      call env now teamId sourceIp (withRows db (db.submissions ++ progress.pending)) [rawFlag] =
        (after, [other]) := by
  obtain ⟨row, results, status⟩ :=
    pass_decides (reads_context env now teamId roundId team.name sourceIp db) open_ first
  rw [if_pos full] at status
  let grown := withRows db (db.submissions ++ progress.pending)
  have reads := reads_context env now teamId roundId team.name sourceIp grown
  obtain ⟨something, fresh, decoded, _⟩ := next_candidate.mp open_
  have known : grown.teams.contains teamId = true := (Dict.contains_eq_some _ _).mpr ⟨team, calling.found⟩
  obtain ⟨alone, passed⟩ :
      ∃ alone, processFlag env grown nobody (contextOf env now teamId roundId team.name sourceIp grown)
      (begun (ownCount db teamId roundId progress)) rawFlag = .ok alone :=
    process_flag_total _ _ rfl rfl known fun _ => storable_of_decoded decoded
  have still : nextCandidate env grown teamId
      (submitted (grown.submissions ++ (begun (ownCount db teamId roundId progress)).pending)
        teamId) rawFlag = some info := by
    rw [pending_begun, List.append_nil]
    exact open_
  obtain ⟨other, answers, accepted⟩ := pass_decides reads still passed
  rw [if_neg (show ¬limited env (begun (ownCount db teamId roundId progress)).acceptedThisRound
    from room)] at accepted
  have answered : shown alone = (alone.pending, [other]) := by
    rw [shown, answers]
    rfl
  exact ⟨row, other, _, results, status, accepted,
    call_one calling (map_ok_iff.mpr ⟨alone, passed, answered⟩)⟩

theorem counters_step
    (reads : Reads env db (contextOf env now teamId roundId team.name sourceIp db))
    (first : processFlag env db nobody (contextOf env now teamId roundId team.name sourceIp db)
      progress rawFlag = .ok next)
    (behind : ownCount db teamId roundId progress ≤ progress.acceptedThisRound)
    (alike : ∀ info, decided env db teamId progress rawFlag = some info →
      (limited env progress.acceptedThisRound ↔ limited env (ownCount db teamId roundId progress)))
    (rest : List Bool) :
    ownCount db teamId roundId next ≤ next.acceptedThisRound ∧
      (SameDecisions env.maxAcceptedPerRound progress.acceptedThisRound
        (ownCount db teamId roundId progress)
          ((decided env db teamId progress rawFlag).toList.map (ownRound db roundId) ++ rest) ↔
        SameDecisions env.maxAcceptedPerRound next.acceptedThisRound
        (ownCount db teamId roundId next) rest) := by
  obtain ⟨counter, own⟩ := pass_counts reads roundId first
  change next.acceptedThisRound = _ + (if (if limited env progress.acceptedThisRound then none
    else decided env db teamId progress rawFlag).isSome then 1 else 0) at counter
  change ownCount db teamId roundId next = ownCount db teamId roundId progress +
    (if (if limited env progress.acceptedThisRound then none
      else decided env db teamId progress rawFlag).any (ownRound db roundId) then 1 else 0) at own
  cases open_ : decided env db teamId progress rawFlag with
  | none =>
      rw [open_, ite_self] at counter own
      have kept : next.acceptedThisRound = progress.acceptedThisRound := counter.trans (Int.add_zero _)
      have same : ownCount db teamId roundId next = ownCount db teamId roundId progress :=
        own.trans (Int.add_zero _)
      rw [kept, same]
      exact ⟨behind, Iff.rfl⟩
  | some info =>
      rw [open_] at counter own
      by_cases full : limited env progress.acceptedThisRound
      · rw [if_pos full] at counter own
        have kept : next.acceptedThisRound = progress.acceptedThisRound := counter.trans (Int.add_zero _)
        have same : ownCount db teamId roundId next = ownCount db teamId roundId progress :=
          own.trans (Int.add_zero _)
        rw [kept, same]
        exact ⟨behind, same_full ((alike info open_).mp full).2⟩
      · rw [if_neg full] at counter own
        have room : env.maxAcceptedPerRound ≤ 0 ∨ progress.acceptedThisRound < env.maxAcceptedPerRound := by
          unfold limited at full
          omega
        have counted : next.acceptedThisRound = progress.acceptedThisRound + 1 := counter
        have sees : ownCount db teamId roundId next = ownCount db teamId roundId progress +
          (if ownRound db roundId info then 1 else 0) := own
        rw [counted, sees]
        refine ⟨?_, same_admitted room behind⟩
        split <;> omega

end Step

/-- The batch goes on from `progress`, the calls from the rows that it would have committed. -/
theorem loop_agrees {roundId : Int} {team : Team} (calling : Calling env now teamId roundId db team)
    {flags : List Text} {progress last : Progress}
    (done : flags.foldlM
      (processFlag env db nobody (contextOf env now teamId roundId team.name sourceIp db))
      progress = .ok last)
    (behind : ownCount db teamId roundId progress ≤ progress.acceptedThisRound) :
    (last.resultRows.map mark = progress.resultRows.map mark ++
          (calls env now teamId sourceIp (withRows db (db.submissions ++ progress.pending))
            flags).2.map mark ∧
        db.submissions ++ last.pending =
          (calls env now teamId sourceIp (withRows db (db.submissions ++ progress.pending))
            flags).1.submissions) ↔
      SameDecisions env.maxAcceptedPerRound progress.acceptedThisRound (ownCount db teamId roundId progress)
        ((candidates env db teamId (submitted (db.submissions ++ progress.pending) teamId)
          flags).map (ownRound db roundId)) := by
  induction flags generalizing progress with
  | nil =>
      cases done
      exact iff_of_true ⟨(List.append_nil _).symm, rfl⟩ (Or.inr (Or.inr (Or.inl (Nat.zero_le _))))
  | cons rawFlag rest ih =>
      rw [List.foldlM_cons] at done
      obtain ⟨next, first, others⟩ := bind_ok_iff.mp done
      have reads := reads_context env now teamId roundId team.name sourceIp db
      have stored : submitted (db.submissions ++ next.pending) teamId =
        seen (submitted (db.submissions ++ progress.pending) teamId) rawFlag := pass_stored first
      rw [candidates_cons, List.map_append, ← stored, calls]
      dsimp only
      by_cases alike : ∀ info, decided env db teamId progress rawFlag = some info →
          (limited env progress.acceptedThisRound ↔ limited env (ownCount db teamId roundId progress))
      · obtain ⟨results, grown, single⟩ := single_alike calling first alike
        obtain ⟨still, step⟩ := counters_step reads first behind alike
          ((candidates env db teamId (submitted (db.submissions ++ next.pending) teamId) rest).map
            (ownRound db roundId))
        rw [single]
        dsimp only
        refine Iff.trans ?_ (step.trans (ih others still).symm).symm
        rw [grown, List.map_append, List.map_append, List.append_assoc]
      · obtain ⟨info, open_, full, room⟩ : ∃ info, decided env db teamId progress rawFlag = some info ∧
            limited env progress.acceptedThisRound ∧
            ¬limited env (ownCount db teamId roundId progress) := by
          unfold limited at alike ⊢
          grind
        obtain ⟨row, other, after, results, status, accepted, single⟩ :=
          single_differs calling first open_ full room
        obtain ⟨more, grown⟩ := loop_extends others
        refine iff_of_false ?_ ?_
        · rintro ⟨same, _⟩
          rw [single, grown, results] at same
          simp only [List.map_append, List.append_assoc, List.map_cons, List.cons_append,
            List.nil_append] at same
          have heads := (List.cons.inj (List.append_cancel_left same)).1
          have statuses : row.status = other.status := congrArg Prod.fst heads
          rw [status, accepted] at statuses
          cases statuses
        · change ¬SameDecisions _ _ _ ((decided env db teamId progress rawFlag).toList.map
            (ownRound db roundId) ++ _)
          rw [open_]
          have positive := full.1
          refine different_decision positive full.2 ?_
          unfold limited at room
          omega

/-! A batch that is lost. -/

theorem call_failed {error : DbError} {team : Team} (running : gameRunning env db = true)
    (found : db.teams.get? teamId = some team) (playing : team.isNop = false)
    (round : currentRoundId env db now = .error error) (flags : List Text) :
    call env now teamId sourceIp db flags = (db, []) := by
  have failed : submitFlags env db now teamId flags sourceIp true = .error error := by
    simp [submitFlags, running, identify, found, playing, prepare, round, bind, Except.bind]
  rw [call, failed]

theorem calls_nothing (flags : List Text)
    (nothing : ∀ flag ∈ flags, call env now teamId sourceIp db [flag] = (db, [])) :
    calls env now teamId sourceIp db flags = (db, []) := by
  induction flags with
  | nil => rfl
  | cons flag rest ih =>
      rw [calls, nothing flag List.mem_cons_self]
      exact ih fun other member => nothing other (List.mem_cons_of_mem _ member)

section Lost
variable {roundId : Int} {team : Team}

/-- A call leaves the rows that there were, and answers an entry that can be stored. -/
theorem call_shape (calling : Calling env now teamId roundId db team) (sourceIp : String)
    (rows : List Submission) (rawFlag : Text) :
    ∃ added results, call env now teamId sourceIp (withRows db rows) [rawFlag] =
      (withRows db (rows ++ added), results) ∧
      (strip rawFlag ≠ [] → storable env (withRows db rows) teamId roundId (strip rawFlag) →
        results ≠ []) := by
  let context := contextOf env now teamId roundId team.name sourceIp (withRows db rows)
  let start := begun (acceptedInRound rows teamId roundId)
  cases passed : processFlag env (withRows db rows) nobody context start rawFlag with
  | ok next =>
      refine ⟨next.pending, next.resultRows, call_one calling (map_ok_iff.mpr ⟨next, passed, rfl⟩), ?_⟩
      rintro something _ nothing
      have answered := process_flag_results passed
      rw [nothing] at answered
      simp [nonBlank, something] at answered
  | error error =>
      refine ⟨[], [], ?_, ?_⟩
      · rw [call_loop (calling_rows calling rows), List.foldlM_cons, List.append_nil]
        have passed_ : processFlag env (withRows db rows) nobody
            (contextOf env now teamId roundId team.name sourceIp (withRows db rows))
            (begun (acceptedInRound (withRows db rows).submissions teamId roundId)) rawFlag =
              .error error := passed
        rw [passed_]
        rfl
      · intro something stored
        have known : (withRows db rows).teams.contains teamId = true :=
          (Dict.contains_eq_some _ _).mpr ⟨team, calling.found⟩
        obtain ⟨next, done⟩ :
            ∃ next, processFlag env (withRows db rows) nobody context start rawFlag = .ok next :=
          process_flag_total start rawFlag rfl rfl known fun _ => stored
        rw [passed] at done
        cases done

theorem storable_grows {rows added : List Submission} {flag : Text}
    (stored : storable env (withRows db rows) teamId roundId flag) :
    storable env (withRows db (rows ++ added)) teamId roundId flag := by
  obtain ⟨plain, old | room⟩ := stored
  · refine ⟨plain, Or.inl ?_⟩
    rw [rows_with, submitted_append]
    exact Bool.or_eq_true_iff.mpr (Or.inl old)
  · exact ⟨plain, Or.inr room⟩

theorem calls_answer (calling : Calling env now teamId roundId db team) (sourceIp : String)
    (flags : List Text) (rows : List Submission) {rawFlag : Text} (member : rawFlag ∈ flags)
    (something : strip rawFlag ≠ [])
    (stored : storable env (withRows db rows) teamId roundId (strip rawFlag)) :
    (calls env now teamId sourceIp (withRows db rows) flags).2 ≠ [] := by
  induction flags generalizing rows with
  | nil => cases member
  | cons head rest ih =>
      obtain ⟨added, results, single, answers⟩ := call_shape calling sourceIp rows head
      rw [calls, single]
      dsimp only
      intro nothing
      obtain ⟨none_, others⟩ := List.append_eq_nil_iff.mp nothing
      rcases List.mem_cons.mp member with here | later
      · exact answers (here ▸ something) (here ▸ stored) none_
      · exact ih (rows ++ added) later (storable_grows stored) others

end Lost

end Loop

theorem same_decisions_iff (limit count : Int) (counted : List Bool) :
    SameDecisions limit count count counted ↔
      limit ≤ 0 ∨ counted.length ≤ (limit - count).toNat ∨ ∀ item ∈ counted.take (limit - count).toNat,
      item = true := by
  unfold SameDecisions
  by_cases full : limit ≤ count
  · have none_ : (limit - count).toNat = 0 := by omega
    rw [none_, List.take_zero]
    exact iff_of_true (Or.inr (Or.inl full)) (Or.inr (Or.inr (List.forall_mem_nil _)))
  · simp only [full, false_or, true_and]

theorem cap_alike_iff (env : Settings) (db : Db) (teamId roundId : Int) (flags : List Text) :
    CapAlike env db teamId roundId flags ↔
      SameDecisions env.maxAcceptedPerRound (acceptedInRound db.submissions teamId roundId)
        (acceptedInRound db.submissions teamId roundId)
        ((candidates env db teamId (submitted db.submissions teamId) flags).map (ownRound db roundId)) := by
  rw [same_decisions_iff, List.length_map, ← List.map_take, List.forall_mem_map]
  rfl

theorem new_flags_nothing (stored : Text → Bool) {flags : List Text} (nothing : nonBlank flags = []) :
    newFlags stored flags = [] := by
  induction flags with
  | nil => rfl
  | cons flag rest ih =>
      rw [non_blank_cons, List.append_eq_nil_iff] at nothing
      have blank : strip flag = [] := by
        by_contra something
        simp [nonBlank, something] at nothing
      rw [newFlags, if_pos (Or.inl blank)]
      exact ih nothing.2

section Whole
variable {env : Settings} {now teamId roundId : Int} {sourceIp : String} {db : Db} {team : Team}
    {flags : List Text}

/-- A batch that commits agrees with its calls when the cap acts alike. -/
theorem committed_agrees (calling : Calling env now teamId roundId db team)
    (commits : ∀ flag ∈ nonBlank flags, storable env db teamId roundId flag) :
    Agree env now teamId sourceIp db flags ↔ CapAlike env db teamId roundId flags := by
  let context := contextOf env now teamId roundId team.name sourceIp db
  let start := begun (acceptedInRound db.submissions teamId roundId)
  have known : db.teams.contains teamId = true := (Dict.contains_eq_some _ _).mpr ⟨team, calling.found⟩
  obtain ⟨last, done⟩ :=
    foldlM_total (f := processFlag env db nobody context) flags start fun progress flag member =>
    process_flag_total progress flag rfl rfl known fun something =>
      commits (strip flag) (mem_non_blank member something)
  have batch : call env now teamId sourceIp db flags =
      (withRows db (db.submissions ++ last.pending), last.resultRows) := by
    rw [call_loop calling, done]
  have same : ownCount db teamId roundId start = acceptedInRound db.submissions teamId roundId := by
    show acceptedInRound (db.submissions ++ []) teamId roundId = _
    rw [List.append_nil]
  have agrees := loop_agrees calling done same.le
  rw [same] at agrees
  simp only [start, pending_begun, List.append_nil] at agrees
  rw [cap_alike_iff, Agree, batch]
  exact agrees

/-- A batch that is lost agrees with its calls when none of them gets through either. -/
theorem lost_agrees (calling : Calling env now teamId roundId db team)
    (lost : ¬∀ flag ∈ nonBlank flags, storable env db teamId roundId flag) :
    Agree env now teamId sourceIp db flags ↔
      ∀ flag ∈ nonBlank flags, ¬storable env db teamId roundId flag := by
  have known : db.teams.contains teamId = true := (Dict.contains_eq_some _ _).mpr ⟨team, calling.found⟩
  have batch : call env now teamId sourceIp db flags = (db, []) := by
    rw [call_loop calling]
    split
    · next last done =>
      refine absurd ?_ lost
      intro flag member
      obtain ⟨inside, something⟩ := List.mem_filter.mp member
      obtain ⟨rawFlag, rawMember, rfl⟩ := List.mem_map.mp inside
      exact batch_storable known flags (by simp) done rawFlag rawMember (of_decide_eq_true something)
    · rfl
  rw [Agree, batch]
  constructor
  · rintro ⟨same, _⟩ flag member stored
    obtain ⟨inside, something⟩ := List.mem_filter.mp member
    obtain ⟨rawFlag, rawMember, rfl⟩ := List.mem_map.mp inside
    have answers :=
      calls_answer calling sourceIp flags db.submissions rawMember (of_decide_eq_true something) stored
    exact answers (List.map_eq_nil_iff.mp same.symm)
  · intro none_
    rw [calls_nothing flags]
    · exact ⟨rfl, rfl⟩
    · intro rawFlag member
      rw [call_loop calling, List.foldlM_cons]
      cases passed : processFlag env db nobody (contextOf env now teamId roundId team.name sourceIp db)
          (begun (acceptedInRound db.submissions teamId roundId)) rawFlag with
      | error error => rfl
      | ok next =>
          by_cases blank : strip rawFlag = []
          · rw [processFlag, blank] at passed
            cases passed
            show (withRows db (db.submissions ++ []), []) = _
            rw [List.append_nil]
            rfl
          · have stored := (pass_storable (by simp) known passed).2 blank
            exact absurd stored (none_ (strip rawFlag) (mem_non_blank member blank))

end Whole

/-- While the game runs, a batch of an existing, non-NOP team and one call for each entry agree
exactly when the batch commits and the cap acts alike on both, or the batch is lost and no entry
gets through alone. -/
theorem batch_agrees_iff (env : Settings) (db : Db) (now teamId : Int) (team : Team)
    (flags : List Text) (sourceIp : String) (running : gameRunning env db = true)
    (found : db.teams.get? teamId = some team) (playing : team.isNop = false) :
    Agree env now teamId sourceIp db flags ↔ Alike env db now teamId flags := by
  cases round : currentRoundId env db now with
  | error error =>
      refine iff_of_true ?_ fun roundId never => by rw [round] at never; cases never
      unfold Agree
      rw [call_failed running found playing round,
        calls_nothing flags fun flag _ => call_failed running found playing round [flag]]
      exact ⟨rfl, rfl⟩
  | ok roundId =>
      have calling : Calling env now teamId roundId db team := ⟨running, found, playing, round⟩
      have one : Alike env db now teamId flags ↔
          (∀ flag ∈ nonBlank flags, storable env db teamId roundId flag) ∧
          CapAlike env db teamId roundId flags ∨
            ∀ flag ∈ nonBlank flags, ¬storable env db teamId roundId flag := by
        unfold Alike
        rw [round]
        exact ⟨fun all => all roundId rfl, fun one other same => Except.ok.inj same ▸ one⟩
      rw [one]
      by_cases commits : ∀ flag ∈ nonBlank flags, storable env db teamId roundId flag
      · rw [committed_agrees calling commits]
        constructor
        · exact fun cap => Or.inl ⟨commits, cap⟩
        · rintro (⟨_, cap⟩ | none_)
          · exact cap
          have nothing : nonBlank flags = [] := List.eq_nil_iff_forall_not_mem.mpr fun flag member =>
            none_ flag member (commits flag member)
          refine Or.inr (Or.inl ?_)
          rw [candidates, new_flags_nothing _ nothing]
          exact Nat.zero_le _
      · rw [lost_agrees calling commits]
        exact (or_iff_right fun both => commits both.1).symm

/-! Two flags of tick 1 and a limit of one, in tick 1 and in tick 2. -/

open RoundCap (oneFlag otherFlag)

def dbAfter (events : List Event) : Db :=
  ((exec (step oneFlag sampleDeployment) (fun _ _ => True) (initial 1000000000) events).getD (initial 0)).db

def alpha : Team := ⟨"alpha", "submit-alpha", "alpha-nat", false, "XK"⟩

theorem own_tick_agrees :
    Agree oneFlag 1000000000 1 "10.0.0.1" (dbAfter firstTick) [betaFlag, otherFlag] := by
  apply (batch_agrees_iff oneFlag (dbAfter firstTick) 1000000000 1 alpha [betaFlag, otherFlag] "10.0.0.1"
    (by decide +kernel) (by decide +kernel) rfl).mpr
  intro roundId round
  have first : currentRoundId oneFlag (dbAfter firstTick) 1000000000 = .ok 1 := by decide +kernel
  rw [first] at round
  cases round
  refine Or.inl ⟨fun flag member => of_decide_eq_true (List.all_eq_true.mp (show
    (nonBlank [betaFlag, otherFlag]).all (fun flag => storable oneFlag (dbAfter firstTick) 1 1 flag) = true
    by decide +kernel) flag member), ?_⟩
  unfold CapAlike
  decide +kernel

def secondTick : List Event := firstTick ++ [.clock 1120000000] ++ endIteration ++ bootstrapIteration 3

/-- In tick 2 the second flag of tick 1 is refused in the batch, and accepted in a call of its own. -/
theorem old_flags_disagree :
    let db := dbAfter secondTick
    gameRunning oneFlag db = true ∧ currentTick oneFlag db = 2 ∧ db.teams.get? 1 = some alpha ∧
    db.submissions = [] ∧
      (call oneFlag 1120000000 1 "10.0.0.1" db [betaFlag, otherFlag]).2.map mark =
        [(.accepted, 1, true), (.roundLimit, 0, false)] ∧
      (calls oneFlag 1120000000 1 "10.0.0.1" db [betaFlag, otherFlag]).2.map mark =
        [(.accepted, 1, true), (.accepted, 1, false)] ∧
      ¬Agree oneFlag 1120000000 1 "10.0.0.1" db [betaFlag, otherFlag] := by
  have run : let db := dbAfter secondTick
      gameRunning oneFlag db = true ∧ currentTick oneFlag db = 2 ∧ db.teams.get? 1 = some alpha ∧
      db.submissions = [] ∧
        (call oneFlag 1120000000 1 "10.0.0.1" db [betaFlag, otherFlag]).2.map mark =
          [(.accepted, 1, true), (.roundLimit, 0, false)] ∧
        (calls oneFlag 1120000000 1 "10.0.0.1" db [betaFlag, otherFlag]).2.map mark =
          [(.accepted, 1, true), (.accepted, 1, false)] := by decide +kernel
  obtain ⟨running, tick, found, blank, batch, singles⟩ := run
  refine ⟨running, tick, found, blank, batch, singles, ?_⟩
  rintro ⟨same, _⟩
  rw [batch, singles] at same
  exact absurd same (by decide)

end KosSim.SingleCalls
