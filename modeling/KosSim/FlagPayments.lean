import KosSim.SubmitSessions

/-!
No flag is paid twice: the UNIQUE constraint and the lock keep the literal
strings of a team apart, and decode_flag is injective on strings without `+` and
`/`. Those two characters are an alias of `-` and `_` and break the second half.
-/

namespace KosSim.FlagPayments
open Library Schema FlagSubmit FlagCrypto AdminTeams Platform SubmitSessions

/-- The flag that the session's next pass of the loop reads. -/
def headFlag (sessions : Sessions) (id : Nat) : Option Text :=
  match sessions.get? id with
  | some ⟨_, _, _, _, .submitting _ _ (flag :: _)⟩ => some (strip flag)
  | _ => none

/-- A string that decode_flag accepts has no `+` and no `/`. -/
def unaliased (env : Settings) (flag : Text) : Bool := (decodeFlag env flag).isNone || canonical flag

def unaliasedOnly (env : Settings) (state : State) : Event → Bool
  | .submit (.flag id) =>
      match headFlag state.sessions id with
      | some flag => unaliased env flag
      | none => true
  | _ => true

def Decodes (env : Settings) (row : Submission) : Prop :=
  canonical row.flag = true ∧ ∃ info, decodeFlag env row.flag = some info

theorem decodes_step {env : Settings} {deployment : InitDb.Deployment} {before after : State}
    {event : Event} (all : AcceptedAll (Decodes env) before.db.submissions before.sessions)
    (met : unaliasedOnly env before event = true)
    (taken : step env deployment before event = some after) :
    AcceptedAll (Decodes env) after.db.submissions after.sessions := by
  rcases step_submissions taken with ⟨submit, same, _, submits⟩ | ⟨teamId, _, _, sessions,
    rows⟩ | ⟨rows, sessions⟩
  · refine accepted_submits all submits ?_
    intro id session context progress flag remaining row flagged present was new accepted
    obtain ⟨info, decoded, _⟩ := new.decoded accepted
    have head : headFlag before.sessions id = some row.flag := by
      cases session
      subst was
      rw [headFlag, present, new.flag]
    rw [same, flagged] at met
    simp only [unaliasedOnly, head, unaliased, decoded, Option.isNone_some, Bool.false_or] at met
    exact ⟨met, info, decoded⟩
  · rw [sessions, rows]
    refine ⟨?_, all.pending⟩
    intro row member accepted
    obtain ⟨old, kept, rfl | rfl⟩ := drop_some member
    · exact all.stored _ kept accepted
    · exact all.stored old kept accepted
  · rw [sessions, rows]
    exact all

/-- In every run whose submitted flags are unaliased, the accepted submissions of a
team decode to different flags. -/
theorem flags_paid_once (env : Settings) (deployment : InitDb.Deployment) (clock : Int) (state : State)
    (run : Steps (step env deployment) (fun state event => unaliasedOnly env state event = true)
      (initial clock) state) :
    state.db.submissions.Pairwise fun one two => one.result = .accepted → two.result = .accepted →
      one.submitterTeamId = two.submitterTeamId → decodeFlag env one.flag ≠ decodeFlag env two.flag := by
  obtain ⟨orderly, all⟩ := steps_invariant
    (fun state => Orderly state.db.submissions state.sessions ∧
      AcceptedAll (Decodes env) state.db.submissions state.sessions)
    (fun _ _ _ kept met taken => ⟨orderly_step kept.1 taken, decodes_step kept.2 met taken⟩)
    ⟨orderly_initial, accepted_initial (Decodes env)⟩ run
  have distinct : state.db.submissions.Pairwise fun one two => ident one ≠ ident two :=
    List.pairwise_map.mp orderly.unique
  refine distinct.imp_of_mem ?_
  intro one two memberOne memberTwo apart acceptedOne acceptedTwo team same
  obtain ⟨plainOne, info, decodedOne⟩ := all.stored one memberOne acceptedOne
  obtain ⟨plainTwo, _⟩ := all.stored two memberTwo acceptedTwo
  have flags :=
    decode_flag_injective env one.flag two.flag info plainOne plainTwo decodedOne (same ▸ decodedOne)
  exact apart (Prod.ext team flags)

def twice : List Event := [.bootstrap, .publicSync] ++ submission 0 1 betaFlag ++ submission 1 1 betaFlag

def afterTwice : State :=
  ((exec (step sampleSettings sampleDeployment)
    (fun state event => unaliasedOnly sampleSettings state event = true)
    (initial 1000000000) twice).getD (initial 0))

/-- Sending the flag a second time stores nothing. -/
theorem repeated_flag_paid_once :
    afterTwice.db.submissions.Pairwise fun one two => one.result = .accepted → two.result = .accepted →
      one.submitterTeamId = two.submitterTeamId →
      decodeFlag sampleSettings one.flag ≠ decodeFlag sampleSettings two.flag :=
  flags_paid_once sampleSettings sampleDeployment 1000000000 afterTwice
    (exec_steps twice _ _ (by decide +kernel))

/-- The same bytes with the other two characters of standard base64. -/
def aliased (flag : Text) : Text := flag.map fun c => if c = '_' then '/' else if c = '-' then '+' else c

theorem aliased_flag_paid_twice :
    ∃ state one two, exec (step sampleSettings sampleDeployment) (fun _ _ => True) (initial 1000000000)
        ([.bootstrap, .publicSync] ++ submission 0 1 betaFlag ++
          submission 1 1 (aliased betaFlag)) = some state ∧
      state.db.submissions = [one, two] ∧ one.result = .accepted ∧ two.result = .accepted ∧
      one.submitterTeamId = two.submitterTeamId ∧ decodeFlag sampleSettings one.flag = some ⟨1, 2, 1, 0⟩ ∧
      decodeFlag sampleSettings two.flag = some ⟨1, 2, 1, 0⟩ := by
  refine ⟨_, _, _, rfl, rfl, ?_⟩
  decide +kernel

end KosSim.FlagPayments
