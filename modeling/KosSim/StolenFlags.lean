import KosSim.ScoringLedger

/-!
The capture pass in closed form: which flags it counts as stolen, whom it notes as attackers,
and that neither depends on the order of the list, where entries of one flag agree on what
they say of it.
-/

namespace KosSim.StolenFlags
open Library Scoring ScoringLedger Finset

abbrev SeenKey := FlagCrypto.Text × Int × Int × Int

/-- Entries of one flag agree on its target and on its earlier submitters. -/
def Consistent (flags : List StolenFlag) : Prop :=
  ∀ one ∈ flags, ∀ other ∈ flags, seenKey one = seenKey other →
    one.numPreviousSubmissions = other.numPreviousSubmissions ∧ one.targetTeamId = other.targetTeamId

instance (flags : List StolenFlag) : Decidable (Consistent flags) :=
  inferInstanceAs (Decidable (∀ one ∈ flags, ∀ other ∈ flags, seenKey one = seenKey other →
    one.numPreviousSubmissions = other.numPreviousSubmissions ∧ one.targetTeamId = other.targetTeamId))

def keysOf (keep : StolenFlag → Bool) (seen : List StolenFlag) : Finset SeenKey :=
  ((seen.filter keep).map seenKey).toFinset

theorem mem_keys_of {keep : StolenFlag → Bool} {key : SeenKey} {seen : List StolenFlag} :
    key ∈ keysOf keep seen ↔ ∃ flag ∈ seen, keep flag = true ∧ seenKey flag = key := by
  simp only [keysOf, List.mem_toFinset, List.mem_map, List.mem_filter, and_assoc]

theorem keys_of_append (keep : StolenFlag → Bool) (seen : List StolenFlag) (flag : StolenFlag) :
    keysOf keep (seen ++ [flag]) = if keep flag = true then insert (seenKey flag)
      (keysOf keep seen) else keysOf keep seen := by
  rw [keysOf, List.filter_append, List.map_append, List.toFinset_append]
  split
  · next kept => rw [List.filter_singleton, kept, insert_eq, union_comm]; rfl
  · next left => rw [List.filter_singleton, Bool.eq_false_iff.mpr left]; exact union_empty _

theorem keys_of_perm (keep : StolenFlag → Bool) {one other : List StolenFlag} (perm : one.Perm other) :
    keysOf keep one = keysOf keep other :=
  List.toFinset_eq_of_perm _ _ ((perm.filter keep).map seenKey)

section Pass
variable (currentTick retention : Int) (nopTeamId : Option Int) (services : List ServiceSpec)
    (teamIds : List Int)

/-- An entry that takes a flag of the pair for the first time. -/
def robs (pair : Pair) (flag : StolenFlag) : Bool :=
  counts currentTick retention nopTeamId services teamIds flag &&
    decide ((flag.targetTeamId, flag.serviceId) = pair) && decide (flag.numPreviousSubmissions = 0)

/-- The two tallies of stolen flags after a prefix of the list. -/
structure Tallied (base : TickPoints) (past : List StolenFlag) (state : CaptureState) : Prop where
  credited : Credited currentTick retention nopTeamId services teamIds base past state
  seen : state.stolenFlagsSeen = keysOf (counts currentTick retention nopTeamId services teamIds) past
  stolen : ∀ pair before points, base.get? pair = some before → state.points.get? pair = some points →
    points.flagStolenCount = before.flagStolenCount +
      (keysOf (robs currentTick retention nopTeamId services teamIds pair) past).card

variable {currentTick retention nopTeamId services teamIds}

theorem tallied_start (base : TickPoints) :
    Tallied currentTick retention nopTeamId services teamIds base [] ⟨base, ∅, ∅, Dict.empty⟩ where
  credited := credited_start base
  seen := rfl
  stolen pair before points found held := by
    rw [found, Option.some.injEq] at held
    rw [held]
    exact (Int.add_zero _).symm

/-- A flag that an earlier entry has taken is not new again; a new one adds one to its own pair. -/
theorem robbed_next {state : CaptureState} {past : List StolenFlag} {flag : StolenFlag} (pair : Pair)
    (consistent : Consistent (past ++ [flag]))
    (tally : state.stolenFlagsSeen = keysOf (counts currentTick retention nopTeamId services teamIds) past)
    (counted : counts currentTick retention nopTeamId services teamIds flag = true) :
    (keysOf (robs currentTick retention nopTeamId services teamIds pair) (past ++ [flag])).card =
      (keysOf (robs currentTick retention nopTeamId services teamIds pair) past).card +
        if stolenNow state flag = true ∧ pair = (flag.targetTeamId, flag.serviceId) then 1 else 0 := by
  have new : stolenNow state flag = true ↔ seenKey flag ∉ state.stolenFlagsSeen ∧
      flag.numPreviousSubmissions = 0 := by
    rw [stolenNow, decide_eq_true_eq]
    rfl
  have own : robs currentTick retention nopTeamId services teamIds pair flag = true ↔
      pair = (flag.targetTeamId, flag.serviceId) ∧ flag.numPreviousSubmissions = 0 := by
    rw [robs, counted, Bool.true_and, Bool.and_eq_true, decide_eq_true_eq, decide_eq_true_eq]
    exact and_congr_left fun _ => eq_comm
  rw [keys_of_append]
  by_cases member : seenKey flag ∈ state.stolenFlagsSeen
  · have settled : robs currentTick retention nopTeamId services teamIds pair flag = true →
        seenKey flag ∈ keysOf (robs currentTick retention nopTeamId services teamIds pair) past := by
      intro robbed
      obtain ⟨earlier, listed, earlierCounts, same⟩ := mem_keys_of.mp (tally ▸ member)
      obtain ⟨previous, target⟩ := consistent earlier (List.mem_append_left _ listed) flag (by simp) same
      have service : earlier.serviceId = flag.serviceId := congrArg (·.2.2.1) same
      refine mem_keys_of.mpr ⟨earlier, listed, ?_, same⟩
      obtain ⟨pairOwn, first⟩ := own.mp robbed
      simp [robs, earlierCounts, pairOwn, target, service, previous, first]
    have old : ¬(stolenNow state flag = true ∧ pair = (flag.targetTeamId, flag.serviceId)) :=
      fun now => (new.mp now.1).1 member
    rw [if_neg old, Nat.add_zero]
    split
    · next robbed => rw [insert_eq_of_mem (settled robbed)]
    · rfl
  · have fresh :
        seenKey flag ∉ keysOf (robs currentTick retention nopTeamId services teamIds pair) past := by
      intro robbed
      obtain ⟨earlier, listed, held, same⟩ := mem_keys_of.mp robbed
      simp only [robs, Bool.and_eq_true] at held
      exact member (tally ▸ mem_keys_of.mpr ⟨earlier, listed, held.1.1, same⟩)
    by_cases robbed : robs currentTick retention nopTeamId services teamIds pair flag = true
    · obtain ⟨pairOwn, first⟩ := own.mp robbed
      rw [if_pos robbed, if_pos ⟨new.mpr ⟨member, first⟩, pairOwn⟩, card_insert_of_notMem fresh]
    · have other : ¬(stolenNow state flag = true ∧ pair = (flag.targetTeamId, flag.serviceId)) :=
        fun now => robbed (own.mpr ⟨now.2, (new.mp now.1).2⟩)
      rw [if_neg robbed, if_neg other, Nat.add_zero]

theorem tallied_step {base : TickPoints} {past : List StolenFlag} {state : CaptureState} {flag : StolenFlag}
    (tallied : Tallied currentTick retention nopTeamId services teamIds base past state)
    (consistent : Consistent (past ++ [flag])) (covers : Covers services teamIds base) :
    Tallied currentTick retention nopTeamId services teamIds base (past ++ [flag])
      (recordCapture currentTick retention nopTeamId services state flag) where
  credited := credited_step flag tallied.credited covers
  seen := by
    have still := credited_known tallied.credited covers
    rw [keys_of_append]
    cases counted : counts currentTick retention nopTeamId services teamIds flag with
    | true => rw [record_capture_counts still counted, if_pos rfl, ← tallied.seen]; rfl
    | false => rw [record_capture_ignores still counted, if_neg (by decide), tallied.seen]
  stolen pair before points found held := by
    have still := credited_known tallied.credited covers
    cases counted : counts currentTick retention nopTeamId services teamIds flag with
    | true =>
        rw [record_capture_counts still counted] at held
        rw [robbed_next pair consistent tallied.seen counted]
        obtain ⟨middle, here, rfl⟩ :=
          Option.map_eq_some_iff.mp ((credit_points_get state flag _ pair).symm.trans held)
        have count := tallied.stolen pair before middle found here
        have paid : (if pair = (flag.submitterTeamId, flag.serviceId) then
            creditAttacker (specOf services flag.serviceId) middle else middle).flagStolenCount =
              middle.flagStolenCount := by
          split <;> rfl
        dsimp only
        split
        · show (if pair = (flag.submitterTeamId, flag.serviceId) then
            creditAttacker (specOf services flag.serviceId) middle else middle).flagStolenCount + 1 = _
          rw [paid, count, Nat.cast_add, Nat.cast_one, add_assoc]
        · rw [paid, count, Nat.add_zero]
    | false =>
        rw [record_capture_ignores still counted] at held
        have out : robs currentTick retention nopTeamId services teamIds pair flag = false := by
          simp [robs, counted]
        rw [keys_of_append, out]
        exact tallied.stolen pair before points found held

theorem tallied_all {base : TickPoints} {flags : List StolenFlag} (consistent : Consistent flags)
    (covers : Covers services teamIds base) :
    Tallied currentTick retention nopTeamId services teamIds base flags
      (flags.foldl (recordCapture currentTick retention nopTeamId services) ⟨base, ∅, ∅, Dict.empty⟩) := by
  induction flags using List.reverseRecOn with
  | nil => exact tallied_start base
  | append_singleton earlier flag ih =>
      rw [List.foldl_append]
      refine tallied_step (ih fun one member other listed => ?_) consistent covers
      exact consistent one (List.mem_append_left _ member) other (List.mem_append_left _ listed)

/-! The attack state. -/

def flagKey (flag : StolenFlag) : FlagKey := (flag.tickIssued, flag.serviceId, flag.payload)

/-- Whom the submitter has taken the flag from. -/
def victims (attacking : Attacking) (key : FlagKey) (submitter : Int) : Option (Finset Int) :=
  (attacking.get? key).bind (·.get? submitter)

variable (currentTick retention nopTeamId services teamIds) in
def attacks (key : FlagKey) (submitter : Int) (flag : StolenFlag) : Bool :=
  counts currentTick retention nopTeamId services teamIds flag && decide (flagKey flag = key) &&
    decide (flag.submitterTeamId = submitter)

variable (currentTick retention nopTeamId services teamIds) in
def targets (key : FlagKey) (submitter : Int) (past : List StolenFlag) : Finset Int :=
  ((past.filter (attacks currentTick retention nopTeamId services teamIds key submitter)).map
    (·.targetTeamId)).toFinset

variable (currentTick retention nopTeamId services teamIds) in
/-- What is noted after a prefix of the list. -/
structure Noted (past : List StolenFlag) (attacking : Attacking) : Prop where
  keys : ∀ key, (attacking.get? key).isSome = true ↔
    ∃ flag ∈ past, counts currentTick retention nopTeamId services teamIds flag = true ∧ flagKey flag = key
  victims : ∀ key submitter, victims attacking key submitter =
    if past.any (attacks currentTick retention nopTeamId services teamIds key submitter) then
      some (targets currentTick retention nopTeamId services teamIds key submitter past)
    else none

theorem note_attack_some (attacking : Attacking) (flag : StolenFlag) (key : FlagKey) :
    ((noteAttack attacking flag).get? key).isSome = true ↔ (attacking.get? key).isSome = true ∨
      flagKey flag = key := by
  rw [noteAttack, Dict.get_set]
  split
  · next same => simp [flagKey, same]
  · next apart => simp only [flagKey, apart, or_false]

theorem bucket_victims (attacking : Attacking) (key : FlagKey) (submitter : Int) :
    ((attacking.get? key).getD Dict.empty).get? submitter = victims attacking key submitter := by
  unfold victims
  cases attacking.get? key <;> rfl

theorem note_attack_victims (attacking : Attacking) (flag : StolenFlag) (key : FlagKey) (submitter : Int) :
    victims (noteAttack attacking flag) key submitter =
      if flagKey flag = key ∧ flag.submitterTeamId = submitter then
        some (insert flag.targetTeamId ((victims attacking key submitter).getD ∅))
      else victims attacking key submitter := by
  by_cases here : flagKey flag = key
  · rw [← here, victims, noteAttack, flagKey, Dict.get_set_self, Option.bind_some, Dict.get_set,
      bucket_victims, bucket_victims]
    by_cases own : flag.submitterTeamId = submitter
    · rw [if_pos own, if_pos ⟨rfl, own⟩, own]
    · rw [if_neg own, if_neg fun both => own both.2]
  · have apart : (flag.tickIssued, flag.serviceId, flag.payload) ≠ key := here
    rw [if_neg fun both => here both.1, victims, noteAttack, Dict.get_set_other _ _ _ _ apart]
    rfl

/-- Where nobody has attacked, the set of targets is empty anyway. -/
theorem targets_default (key : FlagKey) (submitter : Int) (past : List StolenFlag) :
    (if past.any (attacks currentTick retention nopTeamId services teamIds key submitter) then
      some (targets currentTick retention nopTeamId services teamIds key submitter past) else none).getD ∅ =
    targets currentTick retention nopTeamId services teamIds key submitter past := by
  split
  · rfl
  · next nobody =>
    have none : past.filter (attacks currentTick retention nopTeamId services teamIds key
        submitter) = [] := by
      refine List.filter_eq_nil_iff.mpr fun flag member attacked => nobody ?_
      exact List.any_eq_true.mpr ⟨flag, member, attacked⟩
    rw [targets, none]
    rfl

theorem noted_start : Noted currentTick retention nopTeamId services teamIds [] Dict.empty :=
  ⟨fun key => by simp, fun key submitter => rfl⟩

theorem noted_step {past : List StolenFlag} {state : CaptureState} {flag : StolenFlag}
    (noted : Noted currentTick retention nopTeamId services teamIds past state.newAttacking)
    (covers : Covers services teamIds state.points) :
    Noted currentTick retention nopTeamId services teamIds (past ++ [flag])
      (recordCapture currentTick retention nopTeamId services state flag).newAttacking := by
  cases counted : counts currentTick retention nopTeamId services teamIds flag with
  | true =>
      rw [record_capture_counts covers counted, taken]
      constructor
      · intro key
        rw [note_attack_some, noted.keys key]
        constructor
        · rintro (⟨earlier, member, holds⟩ | here)
          · exact ⟨earlier, List.mem_append_left _ member, holds⟩
          · exact ⟨flag, by simp, counted, here⟩
        · rintro ⟨earlier, member, holds, same⟩
          rcases List.mem_append.mp member with before | last
          · exact .inl ⟨earlier, before, holds, same⟩
          · exact .inr (List.mem_singleton.mp last ▸ same)
      · intro key submitter
        rw [note_attack_victims, noted.victims key submitter, targets_default]
        have own : attacks currentTick retention nopTeamId services teamIds key submitter flag = true ↔
            flagKey flag = key ∧ flag.submitterTeamId = submitter := by
          rw [attacks, counted, Bool.true_and, Bool.and_eq_true, decide_eq_true_eq, decide_eq_true_eq]
        by_cases attacked :
            attacks currentTick retention nopTeamId services teamIds key submitter flag = true
        · rw [if_pos (own.mp attacked)]
          simp [targets, attacked]
        · rw [if_neg fun both => attacked (own.mpr both)]
          simp [targets, attacked]
  | false =>
      rw [record_capture_ignores covers counted]
      have out : ∀ key submitter, attacks currentTick retention nopTeamId services teamIds key
          submitter flag = false := by
        intro key submitter
        rw [attacks, counted, Bool.false_and, Bool.false_and]
      constructor
      · intro key
        rw [noted.keys key]
        constructor
        · rintro ⟨earlier, member, holds⟩
          exact ⟨earlier, List.mem_append_left _ member, holds⟩
        · rintro ⟨earlier, member, holds, same⟩
          rcases List.mem_append.mp member with before | last
          · exact ⟨earlier, before, holds, same⟩
          · rw [List.mem_singleton.mp last, counted] at holds
            cases holds
      · intro key submitter
        simp [noted.victims key submitter, targets, out]

theorem noted_all {base : TickPoints} {flags : List StolenFlag}
    (covers : Covers services teamIds base) :
    Noted currentTick retention nopTeamId services teamIds flags
      (flags.foldl (recordCapture currentTick retention nopTeamId services) ⟨base, ∅, ∅,
        Dict.empty⟩).newAttacking := by
  induction flags using List.reverseRecOn with
  | nil => exact noted_start
  | append_singleton earlier flag ih =>
      rw [List.foldl_append]
      have credited : Credited currentTick retention nopTeamId services teamIds base earlier _ :=
        credited_all earlier covers
      exact noted_step ih (credited_known credited covers)

end Pass

/-! Merging the attack states. -/

def mergeVictims (bucket : Option (Dict Int (Finset Int))) (new : Dict Int (Finset Int)) :
    Dict Int (Finset Int) :=
  new.entries.foldl (fun filled entry => filled.set entry.1 (((filled.get? entry.1).getD ∅) ∪ entry.2))
    (bucket.getD Dict.empty)

theorem merge_attacking_get (prev new : Attacking) (key : FlagKey) :
    (mergeAttacking prev new).get? key =
      (new.get? key).elim (prev.get? key) fun bucket => some (mergeVictims (prev.get? key) bucket) :=
  Dict.get_merge_loop mergeVictims new prev key

theorem merge_victims_get (bucket : Option (Dict Int (Finset Int))) (new : Dict Int (Finset Int))
    (submitter : Int) :
    (mergeVictims bucket new).get? submitter =
      (new.get? submitter).elim ((bucket.getD Dict.empty).get? submitter)
      fun found => some ((((bucket.getD Dict.empty).get? submitter).getD ∅) ∪ found) :=
  Dict.get_merge_loop (fun old found => old.getD ∅ ∪ found) new (bucket.getD Dict.empty) submitter

/-- Attack states with the same keys and victims are merged alike. -/
theorem merge_agrees (prev : Attacking) {one other : Attacking}
    (keys : ∀ key, (one.get? key).isSome = (other.get? key).isSome)
    (same : ∀ key submitter, victims one key submitter = victims other key submitter) :
    Dict.Agrees (Dict.Agrees Eq) (mergeAttacking prev one) (mergeAttacking prev other) := by
  intro key
  have present := keys key
  have buckets := same key
  simp only [victims] at buckets
  rw [merge_attacking_get, merge_attacking_get]
  cases first : one.get? key with
  | none =>
      rw [first] at present
      rw [Option.not_isSome_iff_eq_none.mp fun some => Bool.noConfusion (present.trans some)]
      cases prev.get? key with
      | none => exact .none
      | some bucket => exact .some (Dict.agrees_eq fun _ => rfl)
  | some bucket =>
      rw [first] at present buckets
      obtain ⟨second, found⟩ := Option.isSome_iff_exists.mp present.symm
      rw [found] at buckets ⊢
      refine .some (Dict.agrees_eq fun submitter => ?_)
      have victims : bucket.get? submitter = second.get? submitter := buckets submitter
      rw [merge_victims_get, merge_victims_get, victims]

/-! One tick. -/

section Tick
variable {currentTick retention : Int} {nopTeamId : Option Int} {services : List ServiceSpec}
    {teamIds : List Int}

theorem any_perm {one other : List StolenFlag} (perm : one.Perm other) (keep : StolenFlag → Bool) :
    one.any keep = other.any keep := by
  rw [Bool.eq_iff_iff, List.any_eq_true, List.any_eq_true]
  exact exists_congr fun flag => and_congr_left fun _ => perm.mem_iff

theorem targets_perm (key : FlagKey) (submitter : Int) {one other : List StolenFlag}
    (perm : one.Perm other) :
    targets currentTick retention nopTeamId services teamIds key submitter one =
      targets currentTick retention nopTeamId services teamIds key submitter other :=
  List.toFinset_eq_of_perm _ _ ((perm.filter _).map _)

theorem consistent_perm {one other : List StolenFlag} (perm : one.Perm other)
    (consistent : Consistent one) :
    Consistent other :=
  fun first member second listed => consistent first (perm.mem_iff.mpr member) second
  (perm.mem_iff.mpr listed)

/-- What the capture pass leaves does not depend on the order of the list. -/
theorem captured_perm {base : TickPoints} {flags others : List StolenFlag}
    (covers : Covers services teamIds base) (consistent : Consistent flags)
    (perm : flags.Perm others) :
    let one := flags.foldl (recordCapture currentTick retention nopTeamId services) ⟨base, ∅, ∅, Dict.empty⟩
    let other := others.foldl (recordCapture currentTick retention nopTeamId services)
      ⟨base, ∅, ∅, Dict.empty⟩
    (∀ pair, one.points.get? pair = other.points.get? pair) ∧
    one.hackedServices = other.hackedServices := by
  intro one other
  have first : Tallied currentTick retention nopTeamId services teamIds base flags one :=
    tallied_all consistent covers
  have second : Tallied currentTick retention nopTeamId services teamIds base others other :=
    tallied_all (consistent_perm perm consistent) covers
  constructor
  · intro pair
    cases found : base.get? pair with
    | none => rw [first.credited.keys pair found, second.credited.keys pair found]
    | some before =>
        obtain ⟨stolen, here⟩ := first.credited.points pair before found
        obtain ⟨also, there⟩ := second.credited.points pair before found
        have oneCount := first.stolen pair before _ found here
        have otherCount := second.stolen pair before _ found there
        rw [← keys_of_perm _ perm, ← oneCount] at otherCount
        have same : (also : Int) = stolen := add_left_cancel otherCount
        rw [here, there, perm.countP_eq, same]
  · ext pair
    rw [first.credited.hacked, second.credited.hacked]
    exact exists_congr fun flag => and_congr_left fun _ => perm.mem_iff

/-- Both maps of a tick are the same for every order of its submissions. -/
theorem submission_order_free (checkerResults : CheckerResults) (lastTickPoints : TickPoints)
    (prevAttacking : Attacking) {flags others : List StolenFlag} (consistent : Consistent flags)
    (perm : flags.Perm others) :
    let score := calculateScoringForTick currentTick services teamIds nopTeamId retention
      checkerResults lastTickPoints prevAttacking
    Dict.Agrees Eq (score flags).1 (score others).1 ∧
      Dict.Agrees (Dict.Agrees Eq) (score flags).2 (score others).2 := by
  have covers :
      Covers services teamIds (checkedPoints currentTick retention services teamIds checkerResults) :=
    checked_points_known currentTick retention services teamIds checkerResults
  have one : Noted currentTick retention nopTeamId services teamIds flags _ := noted_all covers
  have other : Noted currentTick retention nopTeamId services teamIds others _ := noted_all covers
  constructor
  · apply Dict.agrees_eq
    intro pair
    obtain ⟨points, hacked⟩ :=
      @captured_perm currentTick retention nopTeamId services teamIds _ flags others covers consistent perm
    simp only [checkedPoints] at points hacked
    simp only [calculateScoringForTick, Dict.get_map_entries, points pair, hacked]
  · apply merge_agrees
    · intro key
      rw [Bool.eq_iff_iff]
      refine (one.keys key).trans (Iff.trans ?_ (other.keys key).symm)
      exact exists_congr fun flag => and_congr_left fun _ => perm.mem_iff
    · intro key submitter
      refine (one.victims key submitter).trans (Eq.trans ?_ (other.victims key submitter).symm)
      rw [any_perm perm, targets_perm key submitter perm]

end Tick

/-- Teams 1 and 3 take one flag of team 2, and team 3 a flag of team 1 that was taken before. -/
def sharedFlags : List StolenFlag :=
  [⟨2, 1, 7, 1, 0, ['f'], 0, 2, []⟩, ⟨2, 3, 7, 1, 0, ['f'], 0, 2, []⟩, ⟨1, 3, 7, 1, 0, ['g'], 1, 2, [3]⟩]

def sharedScore (flags : List StolenFlag) : TickPoints × Attacking :=
  calculateScoringForTick 2 [⟨7, "svc", 1, 1⟩] [1, 2, 3] none 5 Dict.empty Dict.empty Dict.empty flags

theorem shared_order_free :
    Dict.Agrees Eq (sharedScore sharedFlags).1 (sharedScore sharedFlags.reverse).1 ∧
      Dict.Agrees (Dict.Agrees Eq) (sharedScore sharedFlags).2 (sharedScore sharedFlags.reverse).2 :=
  submission_order_free Dict.empty Dict.empty Dict.empty (by decide) (List.reverse_perm _).symm

end KosSim.StolenFlags
