import KosSim.Library.Folds
import KosSim.Vulnboxes

/-!
Who writes desired_status last. A request and a worker's last transaction write it, each
with the status of its own action, and nothing keeps the transactions of the workers in
the order of the requests.
-/

namespace KosSim.Vulnboxes
open Library AdminTeams FlagSubmit

/-- The action whose status the input writes into the row of a vulnbox. -/
def writes (vulnboxId : Nat) : Input → Option Action
  | .request asked action _ => if asked = vulnboxId then actionOf action else none
  | .finish task outcome =>
      if task.vulnboxId = vulnboxId ∧
        (completedOf task.action outcome).toBool then some task.action else none
  | .sync | .begin _ => none

/-- The last action asked for, and the last action a worker has finished since. -/
structure History where
  asked : Option Action := none
  finishedSince : Option Action := none

def track (vulnboxId : Nat) (history : History) (input : Input) : History :=
  match input, writes vulnboxId input with
  | .request .., some action => ⟨some action, none⟩
  | .finish .., some action => { history with finishedSince := some action }
  | _, _ => history

def historyOf (vulnboxId : Nat) (inputs : List Input) : History := inputs.foldl (track vulnboxId) {}

def desiredOf (state : State) (vulnboxId : Nat) : Option Desired :=
  (state.vulnboxes.get? vulnboxId).map (·.desiredStatus)

/-- Ids come from the sequence. -/
def Drawn (state : State) : Prop := ∀ vulnboxId ∈ state.vulnboxes.keys, vulnboxId ≤ state.vulnboxSeq

/-- The route and the worker read an action the same way. -/
theorem finished_requested (action : Action) : finishedStatus action = requestedStatus action := by
  cases action <;> rfl

/-! One input. -/

/-- What an input leaves of a vulnbox: the written status, and the old one where nothing is written. -/
structure Left (vulnboxId : Nat) (written : Option Action) (before after : State) : Prop where
  drawn : Drawn after
  desired : desiredOf after vulnboxId = (written.map requestedStatus).or (desiredOf before vulnboxId)

section Input
variable {before after : State} {vulnboxId : Nat}

theorem desired_of_found {state : State} (found : vulnboxId ∈ state.vulnboxes.keys) :
    ∃ desired, desiredOf state vulnboxId = some desired := by
  obtain ⟨row, held⟩ := Option.ne_none_iff_exists'.mp ((Dict.mem_keys_iff _ _).mp found)
  exact ⟨row.desiredStatus, by rw [desiredOf, held]; rfl⟩

theorem left_found {written : Option Action} (left : Left vulnboxId written before after)
    (found : vulnboxId ∈ before.vulnboxes.keys) : vulnboxId ∈ after.vulnboxes.keys := by
  obtain ⟨desired, held⟩ := desired_of_found found
  rw [Dict.mem_keys_iff]
  intro missing
  have kept := left.desired
  rw [held, desiredOf, missing] at kept
  cases written <;> cases kept

/-- The rows as they were. -/
theorem same_left (drawn : Drawn before) (rows : after.vulnboxes = before.vulnboxes)
    (seq : after.vulnboxSeq = before.vulnboxSeq) : Left vulnboxId none before after := by
  constructor
  · rw [Drawn, rows, seq]
    exact drawn
  · rw [desiredOf, rows]
    rfl

/-- A row set in place. -/
theorem set_left {id : Nat} {row new : Vulnbox} {written : Option Action} (drawn : Drawn before)
    (old : before.vulnboxes.get? id = some row)
    (rows : after.vulnboxes = before.vulnboxes.set id new)
    (seq : before.vulnboxSeq ≤ after.vulnboxSeq)
    (mine : id = vulnboxId →
      some new.desiredStatus = (written.map requestedStatus).or (some row.desiredStatus))
    (others : id ≠ vulnboxId → written = none) : Left vulnboxId written before after := by
  constructor
  · intro key member
    rw [rows, Dict.mem_keys_set] at member
    rcases member with rfl | member
    · exact (drawn _ (Dict.mem_keys_of_get old)).trans seq
    · exact (drawn key member).trans seq
  · rw [desiredOf, desiredOf, rows, Dict.get_set]
    by_cases same : id = vulnboxId
    · rw [if_pos same, ← same, old]
      exact mine same
    · rw [if_neg same, others same]
      rfl

theorem ensure_left (drawn : Drawn before) (found : vulnboxId ∈ before.vulnboxes.keys) (teamId : Int)
    (team : NetworkedTeam) : Left vulnboxId none before (ensureVulnbox before teamId team) := by
  unfold ensureVulnbox
  cases known : before.vulnboxes.entries.find? fun entry => entry.2.teamId = teamId ∧
    entry.2.backend = "docker" with
  | some entry =>
      have old := (Dict.mem_entries_iff _ _ _).mp (List.mem_of_find?_eq_some known)
      exact set_left drawn old rfl (Nat.le_succ _) (fun _ => rfl) fun _ => rfl
  | none =>
      constructor
      · intro id member
        rcases (Dict.mem_keys_set _ _ _ _).mp member with rfl | member
        · exact le_rfl
        · exact (drawn id member).trans (Nat.le_succ _)
      · -- the new id is above every id in use
        have fresh : before.vulnboxSeq + 1 ≠ vulnboxId := by
          have := drawn vulnboxId found
          omega
        simp only [desiredOf, Dict.get_set_other _ _ _ _ fresh]
        rfl

theorem sync_left (drawn : Drawn before) (found : vulnboxId ∈ before.vulnboxes.keys) :
    Left vulnboxId none before (ensureVulnboxes before) := by
  refine foldl_keeps (Left vulnboxId none before) ?_ (same_left drawn rfl rfl)
  intro state entry _ left
  have next := ensure_left left.drawn (left_found left found) entry.1 entry.2
  exact ⟨next.drawn, next.desired.trans left.desired⟩

theorem observed_left (drawn : Drawn before) (id : Nat) (status message : String) :
    Left vulnboxId none before (setObservedStatus before id status message) := by
  unfold setObservedStatus
  cases old : before.vulnboxes.get? id with
  | none => exact same_left drawn rfl rfl
  | some row => exact set_left drawn old rfl le_rfl (fun _ => rfl) fun _ => rfl

theorem ask_desired (row : Vulnbox) (action : Action) :
    (row.ask action).desiredStatus = requestedStatus action := by
  cases action <;> rfl

theorem request_left (drawn : Drawn before) (found : vulnboxId ∈ before.vulnboxes.keys) (id : Nat)
    (action : String) (queued : Queued) :
    Left vulnboxId (if id = vulnboxId then actionOf action else none) before
      (apiVulnboxAction before id action queued).1 := by
  unfold apiVulnboxAction
  cases valid : actionOf action with
  | none =>
      rw [ite_self]
      exact same_left drawn rfl rfl
  | some parsed =>
      cases old : before.vulnboxes.get? id with
      | none =>
          have other : id ≠ vulnboxId := by
            rintro rfl
            exact (Dict.mem_keys_iff _ _).mp found old
          rw [if_neg other]
          exact same_left drawn rfl rfl
      | some row =>
          -- The queue's answer decides about the task and the events only.
          cases queued <;>
            exact set_left drawn old rfl le_rfl
              (fun same => by rw [if_pos same, ask_desired]; rfl) fun other => if_neg other

theorem begin_left (drawn : Drawn before) (task : Task) :
    Left vulnboxId none before (beginVulnboxAction before task).1 := by
  unfold beginVulnboxAction
  split
  · exact same_left drawn rfl rfl
  · split <;> exact same_left drawn rfl rfl

theorem finish_left (drawn : Drawn before) (found : vulnboxId ∈ before.vulnboxes.keys) (task : Task)
    (teamId : Int) (outcome : Outcome) : Left vulnboxId
      (if task.vulnboxId = vulnboxId ∧
        (completedOf task.action outcome).toBool then some task.action else none) before
      (finishVulnboxAction before task teamId outcome).1 := by
  unfold finishVulnboxAction
  cases ended : completedOf task.action outcome with
  | error exc =>
      rw [if_neg fun both => Bool.false_ne_true both.2]
      have event : Left vulnboxId none before (recordVulnboxEvent before
          ⟨some task.vulnboxId, some teamId, task.action.text, "FAILED", exc⟩) := same_left drawn rfl rfl
      have status : Left vulnboxId none _ _ := observed_left event.drawn task.vulnboxId "ERROR" exc
      exact ⟨status.drawn, status.desired.trans event.desired⟩
  | ok completed =>
      constructor
      · intro id member
        exact drawn id (by simpa [recordVulnboxEvent] using member)
      · obtain ⟨desired, held⟩ := desired_of_found found
        simp only [desiredOf, recordVulnboxEvent, Dict.get_modify]
        by_cases mine : vulnboxId = task.vulnboxId
        · have wrote : task.vulnboxId = vulnboxId ∧ (Except.ok (ε := String) completed).toBool :=
            ⟨mine.symm, rfl⟩
          obtain ⟨row, old, _⟩ := Option.map_eq_some_iff.mp held
          rw [if_pos mine, if_pos wrote, old]
          exact congrArg some (finished_requested task.action)
        · rw [if_neg mine, if_neg fun both => mine both.1.symm]
          rfl

/-- One step, with the status that its input writes. -/
theorem step_left {input : Input} (drawn : Drawn before) (found : vulnboxId ∈ before.vulnboxes.keys)
    (taken : vulnboxStep before input = some after) :
    Left vulnboxId (writes vulnboxId input) before after := by
  cases input with
  | sync =>
      rw [← Option.some.inj taken]
      exact sync_left drawn found
  | request id action queued =>
      rw [← Option.some.inj taken]
      exact request_left drawn found id action queued
  | begin task =>
      obtain ⟨_, taken⟩ := Option.ite_none_right_eq_some.mp taken
      rw [← Option.some.inj taken]
      have picked : Drawn { before with tasks := before.tasks.erase task } := drawn
      have begun : Left vulnboxId none _ _ := begin_left picked task
      exact ⟨begun.drawn, begun.desired⟩
  | finish task outcome =>
      rw [vulnboxStep] at taken
      cases stage : task.stage with
      | queued => rw [stage] at taken; cases taken
      | commanding teamId command followup =>
          rw [stage] at taken
          obtain ⟨_, taken⟩ := Option.ite_none_right_eq_some.mp taken
          rw [← Option.some.inj taken]
          have picked : Drawn { before with tasks := before.tasks.erase task } := drawn
          have ended : Left vulnboxId _ _ _ := finish_left picked found task teamId outcome
          exact ⟨ended.drawn, ended.desired⟩

end Input

/-! Runs. -/

/-- The row has the status of the last write; the first writes are requests. -/
structure Settled (vulnboxId : Nat) (state : State) (history : History) : Prop where
  drawn : Drawn state
  found : vulnboxId ∈ state.vulnboxes.keys
  last : ∀ action, history.finishedSince.or history.asked = some action →
    desiredOf state vulnboxId = some (requestedStatus action)

theorem settled_step {vulnboxId : Nat} {before after : State} {history : History} {input : Input}
    (settled : Settled vulnboxId before history) (taken : vulnboxStep before input = some after) :
    Settled vulnboxId after (track vulnboxId history input) := by
  have left := step_left settled.drawn settled.found taken
  refine ⟨left.drawn, left_found left settled.found, ?_⟩
  intro action last
  rw [left.desired]
  -- The inputs that are tracked are those that write the row, with the action they write.
  cases written : writes vulnboxId input with
  | none =>
      have same : track vulnboxId history input = history := by
        rw [track.eq_def, written]
        cases input <;> rfl
      rw [same] at last
      exact settled.last action last
  | some wrote =>
      have mine : wrote = action := by
        cases input with
        | sync | begin _ => cases written
        | request id text queued => simpa [track, written] using last
        | finish task outcome => simpa [track, written] using last
      rw [mine]
      rfl

theorem settled_run {vulnboxId : Nat} {first last : State} {inputs : List Input}
    (drawn : Drawn first) (found : vulnboxId ∈ first.vulnboxes.keys)
    (ran : exec vulnboxStep (fun _ _ => True) first inputs = some last) :
    Settled vulnboxId last (historyOf vulnboxId inputs) :=
  exec_tracked (track vulnboxId) (Settled vulnboxId)
  (fun _ _ _ _ settled _ taken => settled_step settled taken)
    ⟨drawn, found, fun _ none => by cases none⟩ ran

/-- desired_status is what was asked for last exactly if the last worker to finish since then agrees. -/
theorem last_request_wins {vulnboxId : Nat} {first last : State} {inputs : List Input} {action : Action}
    (drawn : Drawn first) (found : vulnboxId ∈ first.vulnboxes.keys)
    (ran : exec vulnboxStep (fun _ _ => True) first inputs = some last)
    (asked : (historyOf vulnboxId inputs).asked = some action) :
    desiredOf last vulnboxId = some (requestedStatus action) ↔
      ∀ finished, (historyOf vulnboxId inputs).finishedSince = some finished →
        requestedStatus finished = requestedStatus action := by
  have settled := settled_run drawn found ran
  cases since : (historyOf vulnboxId inputs).finishedSince with
  | none => simp [settled.last action (by rw [since, asked]; rfl)]
  | some finished => simp [settled.last finished (by rw [since]; rfl)]

/-! One vulnbox of one team, stopped and started again. -/

def oneVulnbox : State where
  teams := Dict.ofList [(1, ⟨"team1", some "10.32.1.2"⟩)]
  vulnboxes :=
    Dict.ofList [(1, ⟨1, "docker", .running, "RUNNING", some "team1-vulnbox", some "10.32.1.2", 0, 0, 0⟩)]
  vulnboxSeq := 1

def queuedTask (taskId : String) (action : Action) : Task := ⟨taskId, 1, action, .queued⟩

def commandingTask (taskId : String) (action : Action) : Task :=
  ⟨taskId, 1, action, .commanding 1 (dockerComposeCommand {} "team1" action)
    (dockerComposeFollowupCommand {} "team1" action)⟩

def succeeded : Outcome where
  command := .ok ⟨0, "", ""⟩

/-- Both requests, both first transactions, and the last transactions in the given order. -/
def stopThenStart (ends : List Input) : List Input :=
  [.request 1 "stop" (.ok "a"), .request 1 "start" (.ok "b"), .begin (queuedTask "a" .stop),
    .begin (queuedTask "b" .start)] ++ ends

def inOrder : List Input :=
  stopThenStart [.finish (commandingTask "a" .stop) succeeded,
    .finish (commandingTask "b" .start) succeeded]

def overtaken : List Input :=
  stopThenStart [.finish (commandingTask "b" .start) succeeded,
    .finish (commandingTask "a" .stop) succeeded]

theorem started_in_order : ∃ last, exec vulnboxStep (fun _ _ => True) oneVulnbox inOrder = some last ∧
    last.tasks = [] ∧ desiredOf last 1 = some .running := by
  have drawn : Drawn oneVulnbox := by unfold Drawn; decide
  have found : 1 ∈ oneVulnbox.vulnboxes.keys := by decide
  have asked : (historyOf 1 inOrder).asked = some .start := rfl
  refine ⟨_, rfl, rfl, (last_request_wins drawn found rfl asked).mpr ?_⟩
  intro finished since
  rw [← Option.some.inj since]
  rfl

/-- The stop that ends last wins, though start was asked for last. -/
theorem stopped_by_overtaken_task :
    ∃ last, exec vulnboxStep (fun _ _ => True) oneVulnbox overtaken = some last ∧
      last.tasks = [] ∧ (historyOf 1 overtaken).asked = some .start ∧ ¬desiredOf last 1 = some .running :=
  ⟨_, rfl, rfl, rfl, by decide⟩

end KosSim.Vulnboxes
