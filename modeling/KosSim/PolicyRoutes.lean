import KosSim.PolicyRuns

/-!
What each route of PolicyForge may answer, whatever others do between its calls: what the answer
shows was there, and which checks it has passed.
-/

namespace KosSim.PolicyForge
open Library Library.Base64 Library.Handler
open PolicyDsl (Text CaseMap Rule)

/-- An answer without an object's data and without a token. -/
def Answer.Plain : Answer → Prop
  | .object _ | .allow _ (some _) | .session _ | .shareToken _ => False
  | _ => True

section Routes
variable {env : Env} {system : System State Act} {contract : Contract system} {post : Answer → Prop}
  (plain : ∀ value, value.Plain → post value)
include plain

theorem serve_task_sound
    (puts : ∀ state tick payload flag, contract.keeps state →
      contract.ok state (.putFlag tick payload flag))
    (noises : ∀ state tick payload, contract.keeps state → contract.ok state (.putNoise tick payload))
    (body : Task) (state : State) :
    (serveTask env body).Sound contract (fun value _ => post value) state := by
  unfold serveTask
  dsimp only
  split
  · split
    · exact plain _ trivial
    · exact sound_act fun now _ kept => ⟨puts now _ _ _ kept, fun _ => plain _ trivial⟩
  split
  · exact sound_ask fun now _ _ => plain _ trivial
  split
  · exact sound_act fun now _ kept => ⟨noises now _ _ kept, fun _ => plain _ trivial⟩
  split
  · exact sound_ask fun now _ _ => plain _ trivial
  split
  · exact sound_act_bind fun now _ kept =>
      ⟨noises now _ _ kept, fun _ => sound_ask fun _ _ _ => plain _ trivial⟩
  · exact plain _ trivial

theorem load_sound {id : Text}
    (shown : ∀ state obj, contract.keeps state → state.mem.objects.get? id = some obj →
      env.patches.evalData = false → post (.allow obj.toListed (some obj.data)))
    (state : State) : (load env id).Sound contract (fun value _ => post value) state := by
  refine sound_ask_bind fun now _ kept => ?_
  cases found : now.mem.objects.get? id with
  | none => exact plain _ trivial
  | some obj =>
      dsimp only
      cases patched : env.patches.evalData with
      | false => exact shown now obj kept found patched
      | true =>
          rw [if_pos rfl]
          split
          · exact plain _ trivial
          · exact plain _ trivial

theorem eval_sound {expr : Text}
    (shown : ∀ id state obj, PolicyDsl.eval env.cases (!env.patches.unlessKeyword) expr = .load id →
      contract.keeps state → state.mem.objects.get? id = some obj → env.patches.evalData = false →
      post (.allow obj.toListed (some obj.data)))
    (state : State) : (eval env expr).Sound contract (fun value _ => post value) state := by
  unfold eval
  cases ruled : PolicyDsl.eval env.cases (!env.patches.unlessKeyword) expr with
  | scopeDenied => exact plain _ trivial
  | noRule => exact plain _ trivial
  | load id =>
      exact load_sound plain (fun now obj kept found open_ => shown id now obj ruled kept found open_) state

theorem list_objects_sound (state : State) : listObjects.Sound contract (fun value _ => post value) state :=
  sound_ask fun _ _ _ => plain _ trivial

theorem serve_object_sound {id : Text} {session : Option Text} {clock : Int}
    (asked : ∀ claims one other obj, verifySession env session clock = some claims →
      contract.keeps one → one.mem.objects.get? id = some obj → contract.grows one other →
      contract.keeps other → contract.ok other (.allowed claims id) ∧
      (allowed? env other.mem claims id = some true → post (.object obj))) (state : State) :
    (serveObject env id session clock).Sound contract (fun value _ => post value) state := by
  unfold serveObject
  cases verified : verifySession env session clock with
  | none => exact plain _ trivial
  | some claims =>
      refine sound_ask_bind fun one _ kept => ?_
      cases found : one.mem.objects.get? id with
      | none => exact plain _ trivial
      | some obj =>
          refine sound_act_bind fun other grown later => ?_
          obtain ⟨fine, granted⟩ := asked claims one other obj verified kept found grown later
          refine ⟨fine, fun _ => ?_⟩
          cases decided : allowed? env other.mem claims id with
          | none => exact plain _ trivial
          | some allowed =>
              cases allowed with
              | false => exact plain _ trivial
              | true => exact granted decided

theorem read_snapshot_sound {snap id : Text} {tenant : Option Text}
    (shown : ∀ one other snapshot obj, contract.keeps one →
      one.mem.snapshots.get? snap = some snapshot → id ∈ snapshot.objects → contract.grows one other →
      contract.keeps other → other.mem.objects.get? id = some obj →
      ((!env.patches.tenantClaim && decide (tenant = some "public".toList)) || obj.isPublic) = true →
      post (.object obj)) (state : State) :
    (readSnapshot env snap id tenant).Sound contract (fun value _ => post value) state := by
  refine sound_ask_bind fun one _ kept => ?_
  cases found : one.mem.snapshots.get? snap with
  | none => exact plain _ trivial
  | some snapshot =>
      dsimp only
      by_cases listed : id ∈ snapshot.objects
      · rw [if_pos listed]
        refine sound_ask_bind fun other grown later => ?_
        cases there : other.mem.objects.get? id with
        | none => exact plain _ trivial
        | some obj =>
            dsimp only
            split
            · next allowed => exact shown one other snapshot obj kept found listed grown later there allowed
            · exact plain _ trivial
      · rw [if_neg listed]
        exact plain _ trivial

theorem read_object_sound {id : Text} {first : State}
    (shown : ∀ state obj, contract.grows first state → contract.keeps state →
      state.mem.objects.get? id = some obj →
      post (.object obj)) : (readObject id).Sound contract (fun value _ => post value) first := by
  refine sound_ask_bind fun now grown kept => ?_
  cases found : now.mem.objects.get? id with
  | none => exact plain _ trivial
  | some obj => exact shown now obj grown kept found

theorem serve_share_sound {token id : Text}
    (shown : ∀ snap one obj, verifyShare env token = some snap → contract.keeps one →
      one.mem.objects.get? id = some obj →
      (env.patches.shareBinding = true → ∃ other name snapshot, contract.keeps other ∧
        contract.grows other one ∧ String.fromUTF8? snap.toByteArray = some name ∧
        other.mem.snapshots.get? name.toList = some snapshot ∧ id ∈ snapshot.objects) → post (.object obj))
    (state : State) :
    (serveShare env token id).Sound contract (fun value _ => post value) state := by
  unfold serveShare
  cases verified : verifyShare env token with
  | none => exact plain _ trivial
  | some snap =>
      dsimp only
      cases patched : env.patches.shareBinding with
      | false =>
          rw [if_neg (by decide)]
          refine read_object_sound plain fun now obj _ kept found =>
            shown snap now obj verified kept found ?_
          rw [patched]
          exact fun wrong => absurd wrong (by decide)
      | true =>
          rw [if_pos rfl]
          refine sound_ask_bind fun other _ kept => ?_
          cases found : (String.fromUTF8? snap.toByteArray).bind fun name =>
            other.mem.snapshots.get? name.toList with
          | none => exact plain _ trivial
          | some snapshot =>
              dsimp only
              obtain ⟨name, named, there⟩ := Option.bind_eq_some_iff.mp found
              by_cases listed : id ∈ snapshot.objects
              · rw [if_pos listed]
                exact read_object_sound plain fun now obj grown later stored =>
                  shown snap now obj verified later stored fun _ =>
                    ⟨other, name, snapshot, kept, grown, named, there, listed⟩
              · rw [if_neg listed]
                exact plain _ trivial

omit plain in
/-- Where all objects are public, each was so at some moment. -/
theorem all_public_sound (ids : List Text) (first : State) :
    (allPublic ids).Sound contract (fun all _ => all = true →
      ∀ id ∈ ids, ∃ state obj, contract.grows first state ∧
      contract.keeps state ∧ state.mem.objects.get? id = some obj ∧ obj.isPublic = true) first := by
  induction ids generalizing first with
  | nil => exact fun _ _ member => (List.not_mem_nil member).elim
  | cons id rest ih =>
      refine sound_ask_bind fun now grown kept => ?_
      cases fine : (now.mem.objects.get? id).any fun obj => obj.isPublic with
      | false => exact fun wrong => absurd wrong (by decide)
      | true =>
          refine sound_mono (ih now) fun all _ _ known every =>
            List.forall_mem_cons.mpr ⟨?_, fun other member => ?_⟩
          · obtain ⟨obj, found, shown⟩ := (Option.any_eq_true _ _).mp fine
            exact ⟨now, obj, grown, kept, found, shown⟩
          · obtain ⟨state, obj, later, rest_⟩ := known every other member
            exact ⟨state, obj, contract.trans grown later, rest_⟩

theorem serve_issue_sound {snap : Text}
    (issued : ∀ one snapshot, contract.keeps one → one.mem.snapshots.get? snap = some snapshot →
      (∀ id ∈ snapshot.objects, ∃ other obj, contract.grows one other ∧ contract.keeps other ∧
        other.mem.objects.get? id = some obj ∧ obj.isPublic = true) →
        post (.shareToken (issueShare env snap)))
    (state : State) : (serveIssue env snap).Sound contract (fun value _ => post value) state := by
  refine sound_ask_bind fun one _ kept => ?_
  cases found : one.mem.snapshots.get? snap with
  | none => exact plain _ trivial
  | some snapshot =>
      refine sound_bind (all_public_sound snapshot.objects one) fun all now _ known => ?_
      cases all with
      | false => exact plain _ trivial
      | true => exact issued one snapshot kept found (known rfl)

end Routes

section Known
variable {env : Env}

theorem known_put (state : State) (tick payload : Int) (flag : Text) :
    Known state (.putFlag tick payload flag) :=
  fun _ _ same => by cases same

theorem known_noise (state : State) (tick payload : Int) : Known state (.putNoise tick payload) :=
  fun _ _ same => by cases same

theorem known_found {one other : State} {id : Text} {obj : Obj}
    (found : one.mem.objects.get? id = some obj) (grown : Grown one.mem.objects other.mem.objects)
    (session : Session) : Known other (.allowed session id) := by
  intro _ _ same
  cases same
  rw [Dict.contains, grown id obj found]
  rfl

/-- The requests that write no object. -/
def Request.Reads : Request → Prop
  | .task _ _ _ => False
  | _ => True

/-- A request honours a contract that its asking does, and its task. -/
theorem serve_calls {system : System State Act} {contract : Contract system} {request : Request}
    (asks : ∀ claims id one other obj, contract.keeps one → one.mem.objects.get? id = some obj →
      contract.grows one other → contract.ok other (.allowed claims id))
    (tasks : ¬request.Reads → ∀ body state, (serveTask env body).Sound contract (fun _ _ => True) state)
    (state : State) :
    (serve env request).Sound contract (fun _ _ => True) state := by
  have plain (value : Answer) (_ : value.Plain) : True := trivial
  cases request with
  | service one other => exact trivial
  | task one other body =>
      simp only [serve]
      split
      · exact tasks (fun reads => reads) body state
      · exact trivial
  | rpc method expr now =>
      simp only [serve]
      split
      · exact trivial
      split
      · exact eval_sound plain (fun _ _ _ _ _ _ _ => trivial) state
      split
      · exact list_objects_sound plain state
      split
      · exact trivial
      · exact trivial
  | guestSession now => exact trivial
  | objects => exact list_objects_sound plain state
  | object id session clock =>
      refine serve_object_sound plain (fun claims one other obj _ kept found grown _ => ?_) state
      exact ⟨asks claims id one other obj kept found grown, fun _ => trivial⟩
  | policyEval session expr clock =>
      simp only [serve]
      cases verifySession env session clock with
      | none => exact trivial
      | some claims => exact eval_sound plain (fun _ _ _ _ _ _ _ => trivial) state
  | snapshotObject snap id tenant =>
      exact read_snapshot_sound plain (fun _ _ _ _ _ _ _ _ _ _ _ => trivial) state
  | shareIssue snap => exact serve_issue_sound plain (fun _ _ _ _ _ => trivial) state
  | shareObject token id => exact serve_share_sound plain (fun _ _ _ _ _ _ _ => trivial) state
  | page => exact trivial

/-- No request makes the agent fail, under any contract in which no object is lost. -/
theorem serve_known {system : System State Act} {contract : Contract system}
    (fine : ∀ state act, Known state act → contract.ok state act)
    (lasting : ∀ one other, contract.grows one other → Grown one.mem.objects other.mem.objects)
    (request : Request) (state : State) : (serve env request).Sound contract (fun _ _ => True) state := by
  apply serve_calls
  · exact fun claims id one other obj _ found grown =>
      fine _ _ (known_found found (lasting _ _ grown) claims)
  · intro _ body now
    apply serve_task_sound
    · exact fun _ _ => trivial
    · exact fun last tick payload flag _ => fine _ _ (known_put last tick payload flag)
    · exact fun last tick payload _ => fine _ _ (known_noise last tick payload)

theorem reads_fitting {more : State → Act → Prop}
    (asked : ∀ state session id, more state (.allowed session id)) {request : Request}
    (reads : request.Reads) (state : State) :
    (serve env request).Sound (fitting (agentUnder env more)) (fun _ _ => True) state := by
  apply serve_calls
  · exact fun claims id _ other _ _ _ _ =>
      ⟨fun _ member => (List.not_mem_nil member).elim, asked other claims id⟩
  · exact fun other => absurd reads other

end Known
end KosSim.PolicyForge
