import KosSim.Library.Runs
import KosSim.AdminTeams
import KosSim.FlagSubmit

/-!
vulnboxes.py and the vulnbox routes of admin_api.py: a request writes the row and queues
a task; a worker reads the row in one transaction, runs docker without the row's lock and
writes the row in another. What docker answers is the input of the last transaction.
-/

namespace KosSim.Vulnboxes
open Library AdminTeams FlagSubmit

inductive Action where
  | start
  | stop
  | restart
  | reset
  | rebuild
  deriving DecidableEq

inductive Desired where
  | running
  | stopped
  deriving DecidableEq

def Desired.text : Desired → String
  | .running => "RUNNING"
  | .stopped => "STOPPED"

def Action.text : Action → String
  | .start => "start"
  | .stop => "stop"
  | .restart => "restart"
  | .reset => "reset"
  | .rebuild => "rebuild"

/-- The pattern of VulnboxActionBody, and VALID_ACTIONS. -/
def actionOf (text : String) : Option Action :=
  [Action.start, .stop, .restart, .reset, .rebuild].find? fun action => decide (action.text = text)

structure Vulnbox where
  teamId : Int
  backend : String
  desiredStatus : Desired
  observedStatus : String
  host : Option String
  ipAddress : Option String
  resetGeneration : Nat := 0
  restartGeneration : Nat := 0
  rebuildGeneration : Nat := 0
  deriving DecidableEq

structure VulnboxEvent where
  vulnboxId : Option Nat
  teamId : Option Int
  action : String
  status : String
  message : String
  deriving DecidableEq

/-- A team with its row of team_networks. -/
structure NetworkedTeam where
  name : String
  vulnboxIp : Option String
  deriving DecidableEq

/-! The commands. -/

structure ComposeEnv where
  bin : List String := ["docker", "compose"]
  file : String := ""
  project : String := "kossim"
  serviceCount : Nat := 5

def composeServicesForTeam (env : ComposeEnv) (teamName : String) : List String :=
  (List.range env.serviceCount).map fun i => teamName ++ "-svc" ++ toString (i + 1)

def composeCommand (env : ComposeEnv) : List String :=
  env.bin ++ (if env.file = "" then [] else ["-f", env.file]) ++
    (if env.project = "" then [] else ["-p", env.project])

def dockerComposeCommand (env : ComposeEnv) (teamName : String) : Action → List String
  | .start => composeCommand env ++ ["up", "-d"] ++ composeServicesForTeam env teamName
  | .stop => composeCommand env ++ ["stop"] ++ composeServicesForTeam env teamName
  | .restart => composeCommand env ++ ["restart"] ++ composeServicesForTeam env teamName
  | .reset => composeCommand env ++ ["rm", "-sfv"] ++ composeServicesForTeam env teamName
  | .rebuild =>
      composeCommand env ++ ["up", "-d", "--build", "--force-recreate"] ++
        composeServicesForTeam env teamName

def dockerComposeFollowupCommand (env : ComposeEnv) (teamName : String) (action : Action) :
    Option (List String) :=
  if action ≠ .reset then none else some (composeCommand env ++ ["up", "-d"] ++
    composeServicesForTeam env teamName)

/-! The state. -/

inductive Stage where
  | queued
  | commanding (teamId : Int) (command : List String) (followup : Option (List String))
  deriving DecidableEq

structure Task where
  taskId : String
  vulnboxId : Nat
  action : Action
  stage : Stage
  deriving DecidableEq

structure State where
  env : ComposeEnv := {}
  teams : Dict Int NetworkedTeam
  vulnboxes : Dict Nat Vulnbox
  vulnboxSeq : Nat := 0
  vulnboxEvents : List VulnboxEvent := []
  tasks : List Task := []

/-- INSERT .. ON CONFLICT (team_id, backend) for one team; the sequence moves on either way. -/
def ensureVulnbox (state : State) (teamId : Int) (team : NetworkedTeam) : State :=
  let host := team.name ++ "-vulnbox"
  let seq := state.vulnboxSeq + 1
  match state.vulnboxes.entries.find? fun entry => entry.2.teamId = teamId ∧ entry.2.backend = "docker" with
  | some (vulnboxId, row) =>
      { state with
        vulnboxes := state.vulnboxes.set vulnboxId
          { row with host := some (row.host.getD host), ipAddress := row.ipAddress.or team.vulnboxIp }
        vulnboxSeq := seq }
  | none =>
      { state with
        vulnboxes :=
          state.vulnboxes.set seq ⟨teamId, "docker", .running, "UNKNOWN", some host,
            team.vulnboxIp, 0, 0, 0⟩
        vulnboxSeq := seq }

def ensureVulnboxes (state : State) : State :=
  (state.teams.entries.insertionSort fun one other => one.1 ≤ other.1).foldl
    (fun state entry => ensureVulnbox state entry.1 entry.2) state

def recordVulnboxEvent (state : State) (event : VulnboxEvent) : State :=
  { state with vulnboxEvents := state.vulnboxEvents ++ [event] }

/-! The request. -/

/-- desired_status as the route computes it. -/
def requestedStatus (action : Action) : Desired := if action = .stop then .stopped else .running

def Vulnbox.ask (row : Vulnbox) (action : Action) : Vulnbox :=
  let asked := { row with desiredStatus := requestedStatus action }
  match action with
  | .restart => { asked with restartGeneration := row.restartGeneration + 1 }
  | .reset => { asked with resetGeneration := row.resetGeneration + 1 }
  | .rebuild => { asked with rebuildGeneration := row.rebuildGeneration + 1 }
  | .start | .stop => asked

/-- What the queue does with the task: its id, or the exception's repr and text. -/
abbrev Queued := Except (String × String) String

def apiVulnboxAction (state : State) (vulnboxId : Nat) (action : String) (queued : Queued) :
    State × Except ApiError String :=
  match actionOf action with
  | none => (state, .error .validation)
  | some action =>
      match state.vulnboxes.get? vulnboxId with
      | none => (state, .error (.status 404 "vulnbox not found"))
      | some row =>
          let asked := recordVulnboxEvent { state with
            vulnboxes := state.vulnboxes.set vulnboxId (row.ask action) }
            ⟨some vulnboxId, some row.teamId, action.text, "QUEUED", "operator requested action"⟩
          -- The row and its event are committed first, so a failed enqueue leaves the wish in the row.
          match queued with
          | .ok taskId =>
              ({ asked with tasks := asked.tasks ++ [⟨taskId, vulnboxId, action, .queued⟩] }, .ok taskId)
          | .error (repr, text) =>
              (recordVulnboxEvent asked ⟨some vulnboxId, none, action.text, "FAILED",
                "enqueue failed: " ++ repr⟩, .error (.status 503 ("queue unavailable: " ++ text)))

/-- `_set_observed_status`. -/
def setObservedStatus (state : State) (vulnboxId : Nat) (status message : String) : State :=
  match state.vulnboxes.get? vulnboxId with
  | none => state
  | some row =>
      recordVulnboxEvent { state with
        vulnboxes := state.vulnboxes.set vulnboxId { row with observedStatus := status } }
        ⟨some vulnboxId, some row.teamId, "status", status, message⟩

/-! The task. -/

/-- The first transaction: the task with its commands, or MISSING. -/
def beginVulnboxAction (state : State) (task : Task) : State × Option Task :=
  match state.vulnboxes.get? task.vulnboxId with
  | none => (state, none)
  | some row =>
      match state.teams.get? row.teamId with
      | none => (state, none)
      | some team =>
          (recordVulnboxEvent state
              ⟨some task.vulnboxId, some row.teamId, task.action.text, "RUNNING", "task=" ++ task.taskId⟩,
            some { task with
              stage := .commanding row.teamId (dockerComposeCommand state.env team.name task.action)
                (dockerComposeFollowupCommand state.env team.name task.action) })

structure Completed where
  returncode : Int
  stdout : String
  stderr : String
  deriving DecidableEq

/-- What subprocess.run gives for the command and for the followup: a result or the exception's repr. -/
structure Outcome where
  command : Except String Completed
  followup : Except String Completed := .ok ⟨0, "", ""⟩

def completedOf (action : Action) (outcome : Outcome) : Except String Completed :=
  match outcome.command with
  | .error exc => .error exc
  -- rm answered well: the result of up takes the place of its result.
  | .ok completed => if completed.returncode = 0 ∧ action = .reset then outcome.followup else .ok completed

/-- desired_status as the worker computes it. -/
def finishedStatus (action : Action) : Desired :=
  if action ∈ [Action.start, .restart, .reset, .rebuild] then .running else .stopped

def outputOf (completed : Completed) : List Char :=
  strip (completed.stdout ++ "\n" ++ completed.stderr).toList

/-- The last transaction and the status the task returns. -/
def finishVulnboxAction (state : State) (task : Task) (teamId : Int) (outcome : Outcome) : State × String :=
  match completedOf task.action outcome with
  | .error exc =>
      (setObservedStatus
        (recordVulnboxEvent state ⟨some task.vulnboxId, some teamId, task.action.text, "FAILED", exc⟩)
        task.vulnboxId "ERROR" exc, "FAILED")
  | .ok completed =>
      let status := if completed.returncode = 0 then "OK" else "FAILED"
      let desired := finishedStatus task.action
      let observed := if status = "OK" then desired.text else "ERROR"
      let out := outputOf completed
      (recordVulnboxEvent
        { state with
          vulnboxes := state.vulnboxes.modify task.vulnboxId fun row =>
            { row with observedStatus := observed, desiredStatus := desired } }
        ⟨some task.vulnboxId, some teamId, task.action.text, status,
          String.ofList (out.drop (out.length - 4000))⟩, status)

/-! The system. -/

inductive Input where
  | sync
  | request (vulnboxId : Nat) (action : String) (queued : Queued)
  | begin (task : Task)
  | finish (task : Task) (outcome : Outcome)

/-- Any worker takes any queued task, and commands end in any order. -/
def vulnboxStep (state : State) : Input → Option State
  | .sync => some (ensureVulnboxes state)
  | .request vulnboxId action queued => some (apiVulnboxAction state vulnboxId action queued).1
  | .begin task =>
      if task ∈ state.tasks ∧ task.stage = .queued then
        let (after, started) := beginVulnboxAction { state with tasks := state.tasks.erase task } task
        some { after with tasks := after.tasks ++ started.toList }
      else none
  | .finish task outcome =>
      match task.stage with
      | .queued => none
      | .commanding teamId _ _ =>
          if task ∈ state.tasks then
            some (finishVulnboxAction { state with tasks := state.tasks.erase task } task teamId outcome).1
          else none

end KosSim.Vulnboxes
