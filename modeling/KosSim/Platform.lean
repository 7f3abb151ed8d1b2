import KosSim.AdminTeams
import KosSim.CheckerRuns
import KosSim.FlagSubmit
import KosSim.InitDb
import KosSim.Library.Runs

/-!
The control plane as one transition system: the rotator's loop, the open
submit_flags transactions, the checker workers, the admin and the public API over
one database. Each event is one statement group or one transaction of the source.
Commands on the timer take turns with the rotator's iterations. That is an
idealisation: an iteration holds the game_state row only if its sync writes, and
a command loads the row before it waits. TimerClients models the clients without it.
-/

namespace KosSim.Platform
open Library Schema CheckerJobs CheckerRuns FlagSubmit FlagCrypto Rotator InitDb AdminTeams

/-! submit_flags, one open transaction per session. -/

inductive SubmitStage where
  | begun
  | admitted                        -- the gate has seen a running game
  | identified (name : String)
  | locked (name : String)          -- pg_advisory_xact_lock(team) is held from here on
  | submitting (context : Context) (progress : Progress) (remaining : List Text)
  deriving DecidableEq

structure Session where
  teamId : Int
  flags : List Text
  sourceIp : String
  startedAt : Int
  stage : SubmitStage
  deriving DecidableEq

abbrev Sessions := Dict Nat Session

def holdsLock (session : Session) : Bool :=
  match session.stage with
  | .locked _ | .submitting _ _ _ => true
  | _ => false

def pendingOf (session : Session) : List Submission :=
  match session.stage with
  | .submitting _ progress _ => progress.pending
  | _ => []

def firstbloodKeysOf (session : Session) : List (Int × Int) :=
  match session.stage with
  | .submitting _ progress _ => progress.firstbloodKeys
  | _ => []

def lockFree (sessions : Sessions) (teamId : Int) : Bool :=
  !sessions.entries.any fun entry => entry.2.teamId = teamId && holdsLock entry.2

def busyKeys (sessions : Sessions) (id : Nat) (key : Int × Int) : Bool :=
  sessions.entries.any fun entry => entry.1 ≠ id && (firstbloodKeysOf entry.2).contains key

def close (sessions : Sessions) (id : Nat) : Sessions := sessions.filter fun other _ => decide (other ≠ id)

inductive SubmitEvent where
  | start (id : Nat) (teamId : Int) (flags : List Text) (sourceIp : String)
  | gate (id : Nat)
  | identify (id : Nat)
  | lock (id : Nat)
  | prepare (id : Nat)
  | flag (id : Nat)
  | commit (id : Nat)
  | rollback (id : Nat)
  deriving DecidableEq

def setStage (sessions : Sessions) (id : Nat) (session : Session) (stage : SubmitStage) : Sessions :=
  sessions.set id { session with stage := stage }

/-- One step of a session; an error rolls the transaction back. -/
def submitStep (env : Settings) (clock : Int) (db : Db) (sessions : Sessions) :
    SubmitEvent → Option (List Submission × Sessions)
  | .start id teamId flags sourceIp =>
      if sessions.contains id then none
      else some (db.submissions, sessions.set id ⟨teamId, flags, sourceIp, clock, .begun⟩)
  | .gate id =>
      match sessions.get? id with
      | some session =>
          if session.stage ≠ .begun then none
          else if gameRunning env db then some (db.submissions, setStage sessions id session .admitted)
          else some (db.submissions, close sessions id)
      | none => none
  | .identify id =>
      match sessions.get? id with
      | some session =>
          if session.stage ≠ .admitted then none
          else match identify db session.teamId with
            | .ok name => some (db.submissions, setStage sessions id session (.identified name))
            | .error _ => some (db.submissions, close sessions id)
      | none => none
  | .lock id =>
      match sessions.get? id with
      | some session =>
          match session.stage with
          | .identified name =>
              if lockFree sessions session.teamId then
                some (db.submissions, setStage sessions id session (.locked name))
              else none
          | _ => none
      | none => none
  | .prepare id =>
      match sessions.get? id with
      | some session =>
          match session.stage with
          | .locked name =>
              match prepare env db clock session.startedAt session.teamId name session.sourceIp with
              | .ok (context, progress) =>
                  some (db.submissions,
                    setStage sessions id session (.submitting context progress session.flags))
              | .error _ => some (db.submissions, close sessions id)
          | _ => none
      | none => none
  | .flag id =>
      match sessions.get? id with
      | some session =>
          match session.stage with
          | .submitting context progress (flag :: remaining) =>
              match processFlag env db (busyKeys sessions id) context progress flag with
              | .ok next =>
                  some (db.submissions, setStage sessions id session (.submitting context next remaining))
              | .error _ => some (db.submissions, close sessions id)
          | _ => none
      | none => none
  | .commit id =>
      match sessions.get? id with
      | some session =>
          match session.stage with
          | .submitting _ progress [] => some (db.submissions ++ progress.pending, close sessions id)
          | _ => none
      | none => none
  | .rollback id => if sessions.contains id then some (db.submissions, close sessions id) else none

/-! The loop of the rotator's main. -/

inductive Kind where
  | bootstrap
  | tickEnd
  deriving DecidableEq

structure Round where
  roundId : Int
  startsAt : Int
  endsAt : Int
  deriving DecidableEq

/-- Where the iteration is; `access` is the timer object and the row of its open transaction. -/
inductive Loop where
  | idle
  | polled (access : GameTimer.Access)
  | boundary (kind : Kind) (access : GameTimer.Access) (round : Round) (startedAt : Int)
  | queueing (kind : Kind) (access : GameTimer.Access) (round : Round) (tick : Int)
    (items : List TeamServiceItem)
  | enqueueing (kind : Kind) (access : GameTimer.Access) (jobs : List JobKey)
  | checked (access : GameTimer.Access)
  | closing (access : GameTimer.Access)
  deriving DecidableEq

inductive RotatorEvent where
  | next
  | enqueued (taskId : String)
  | enqueueFailed (error : String)
  | fail                            -- an exception, or the process dies
  deriving DecidableEq

def seconds (clock : Int) : Int := clock.fdiv second

def windowRound (tick start stop : Int) : Round := ⟨tick, start * second, stop * second⟩

/-- The bootstrap call: a running tick without checker jobs. A window end of 0 is false. -/
def bootstrapRound (db : Db) (timer : GameTimer) : Option Round :=
  if timer.state ≠ .running ∨ timer.currentTick < 1 then none
  else if db.checker.checkerJobs.entries.any fun entry => entry.1.1 = timer.currentTick then none
  else match timer.tickStart, timer.tickEnd with
    | some start, some stop =>
        if start = 0 ∨ stop = 0 then none else some (windowRound timer.currentTick start stop)
    | _, _ => none

def endRound (timer : GameTimer) (now : Int) : Option Round :=
  (GameTimer.boundaryReady timer now).map fun ready => windowRound ready.1 ready.2.1 ready.2.2

def itemRefs (db : Db) (roundId : Int) (item : TeamServiceItem) : Bool :=
  db.teams.contains item.teamId && db.services.contains item.serviceId && db.flagRounds.contains roundId

def afterQueue (kind : Kind) (access : GameTimer.Access) : Loop :=
  match kind with
  | .bootstrap => .checked access
  | .tickEnd => .closing access

/-- load_timer, sync_scheduled_start and load at the head of an iteration. -/
def poll (env : Settings) (db : Db) (now : Int) : GameTimer.Access :=
  let loaded := GameTimer.loadTimer env db.gameState
  let synced := GameTimer.syncScheduledStart env loaded.timer (some loaded.row) now
  ⟨GameTimer.load synced.timer (some synced.row), synced.row⟩

def rotatorStep (env : Settings) (clock : Int) (db : Db) : Loop → RotatorEvent → Option (Db × Loop)
  | _, .fail => some (db, .idle)
  | .idle, .next => some (db, .polled (poll env db (seconds clock)))
  | .polled access, .next =>
      match bootstrapRound db access.timer with
      | some round => some (db, .boundary .bootstrap access round clock)
      | none => some (db, .checked access)
  | .boundary kind access round startedAt, .next =>
      match runTickBoundary env db startedAt round.roundId round.startsAt round.endsAt with
      | .error _ => some (db, .idle)
      | .ok boundary => some (boundary.db, .queueing kind access round boundary.tick boundary.teamServices)
  | .queueing kind access round tick items, .next =>
      if items.all (itemRefs db round.roundId) then
        let scheduled := scheduleCheckerJobs env tick round.roundId round.endsAt db.checker items
        some ({ db with checker := scheduled.1 }, .enqueueing kind access scheduled.2)
      else some (db, .idle)
  | .enqueueing kind access [], .next => some (db, afterQueue kind access)
  | .enqueueing kind access (job :: rest), .enqueued taskId =>
      some ({ db with checker := enqueued db.checker job taskId }, .enqueueing kind access rest)
  | .enqueueing kind access (job :: rest), .enqueueFailed error =>
      some ({ db with checker := enqueueFailed db.checker job error }, .enqueueing kind access rest)
  | .checked access, .next =>
      match endRound access.timer (seconds clock) with
      | some round => some (db, .boundary .tickEnd access round clock)
      | none => some ({ db with gameState := some access.row }, .idle)
  | .closing access, .next =>
      let finished := GameTimer.finishBoundary env access.timer (some access.row) (seconds clock)
      some ({ db with gameState := some finished.row }, .idle)
  | _, _ => none

/-! The other parties. -/

inductive AdminEvent where
  | setDesired (desired : CTFState)
  | schedule (startAt stopAfterTick scoreboardFreezeTick : Option Int)
  | createTeam (body : TeamCreateBody)
  | updateTeam (teamId : Int) (body : TeamUpdateBody)
  | deleteTeam (teamId : Int)
  deriving DecidableEq

structure State where
  clock : Int                       -- microseconds
  db : Db
  loop : Loop
  sessions : Sessions
  tasks : Tasks
  deriving DecidableEq

inductive Event where
  | clock (now : Int)
  | rotator (event : RotatorEvent)
  | submit (event : SubmitEvent)
  | worker (event : WorkerEvent)
  | admin (event : AdminEvent)
  | publicSync                      -- a public handler that commits sync_scheduled_start
  | bootstrap                       -- a process starts and runs bootstrap_database
  deriving DecidableEq

def loadedAccess (env : Settings) (db : Db) : GameTimer.Access := GameTimer.loadTimer env db.gameState

/-- A row of an open submission keeps the teams it refers to (FOR KEY SHARE). -/
def refersTo (teamId : Int) (row : Submission) : Bool :=
  row.submitterTeamId = teamId || row.targetTeamId = some teamId

def inUse (sessions : Sessions) (teamId : Int) : Bool :=
  sessions.entries.any fun entry => (pendingOf entry.2).any (refersTo teamId)

def adminStep (env : Settings) (db : Db) (loop : Loop) (sessions : Sessions) : AdminEvent → Option Db
  | .setDesired desired =>
      if loop = .idle then
        let access := loadedAccess env db
        some { db with
          gameState := some (GameTimer.setDesired env access.timer (some access.row) desired).row }
      else none
  | .schedule startAt stopAfterTick scoreboardFreezeTick =>
      if loop = .idle then
        let access := loadedAccess env db
        some { db with gameState := some (GameTimer.schedule env access.timer (some access.row)
          startAt stopAfterTick scoreboardFreezeTick).row }
      else none
  | .createTeam body => some (apiTeamCreate env db body).1
  | .updateTeam teamId body => some (apiTeamUpdate db teamId body).1
  | .deleteTeam teamId => if inUse sessions teamId then none else some (apiTeamDelete db teamId).1

/-- service_health and checker_jobs rows refer to existing teams, services and rounds. -/
def taskRefs (db : Db) (task : Task) : Bool :=
  itemRefs db task.roundId ⟨task.key.2.1, task.key.2.2, "", 0⟩

def workerRefs (db : Db) (tasks : Tasks) : WorkerEvent → Bool
  | .checks worker _ | .exception worker _ | .retryFailed worker _ =>
      match tasks.get? worker with
      | some (task, _) => taskRefs db task
      | none => true
  | _ => true

def step (env : Settings) (deployment : Deployment) (state : State) : Event → Option State
  | .clock now => some { state with clock := now }
  | .rotator event =>
      (rotatorStep env state.clock state.db state.loop event).map fun after =>
        { state with db := after.1, loop := after.2 }
  | .submit event =>
      (submitStep env state.clock state.db state.sessions event).map fun after =>
        { state with db := { state.db with submissions := after.1 }, sessions := after.2 }
  | .worker event =>
      if workerRefs state.db state.tasks event then
        (workerStep env state.clock state.db.checker state.tasks event).map fun after =>
          { state with db := { state.db with checker := after.1 }, tasks := after.2 }
      else none
  | .admin event =>
      (adminStep env state.db state.loop state.sessions event).map fun after => { state with db := after }
  | .publicSync =>
      if state.loop = .idle then
        let access := loadedAccess env state.db
        let synced := GameTimer.syncScheduledStart env access.timer (some access.row) (seconds state.clock)
        some { state with db := { state.db with gameState := some synced.row } }
      else none
  | .bootstrap =>
      match bootstrapDatabase env deployment state.db with
      | .ok db => some { state with db := db }
      | .error _ => none

def initial (clock : Int) : State := ⟨clock, emptyDb, .idle, Dict.empty, Dict.empty⟩

/-! A small deployment for concrete runs: two teams and the NOP team on one service.
The digests are those of HMAC-SHA256 under SECRET_FLAG_KEY=secret for the headers used. -/

def sampleHmac (header : List UInt8) : List UInt8 :=
  if header = packHeader 1 2 1 0 then
    [175, 47, 11, 252, 122, 237, 6, 219, 21, 212, 176, 45, 110, 79, 1, 127,
      230, 158, 9, 238, 105, 244, 198, 17, 185, 125, 206, 144, 207, 234, 90, 194]
  else if header = packHeader 2 2 1 0 then
    [37, 129, 248, 138, 32, 228, 145, 197, 10, 216, 1, 132, 95, 22, 205, 38,
      112, 48, 48, 117, 81, 68, 18, 38, 195, 118, 25, 42, 101, 175, 249, 202]
  else List.replicate 32 0

def sampleSettings : Settings := defaultSettings sampleHmac

def sampleDeployment : Deployment where
  teams := ["alpha", "beta"]
  services := ["svc"]
  nopName := "nop"
  country := fun _ => "XK"
  payloads := fun _ => 1
  displayName := fun name => name
  host := fun team service _ => (team ++ "-" ++ service, 8080)

/-- The flag of team 2 (beta) on service 1 in tick 1, as make_flag emits it. -/
def betaFlag : Text := makeFlag sampleSettings 1 2 1 0

/-- A whole submission of one flag by one team, in one go. -/
def submission (id : Nat) (teamId : Int) (flag : Text) : List Event :=
  [.submit (.start id teamId [flag] "10.0.0.1"), .submit (.gate id), .submit (.identify id),
    .submit (.lock id), .submit (.prepare id), .submit (.flag id), .submit (.commit id)]

def rotate (count : Nat) : List Event := List.replicate count (.rotator .next)

/-- An iteration that bootstraps a tick with the given number of new checker jobs. -/
def bootstrapIteration (jobs : Nat) : List Event :=
  rotate 4 ++ List.replicate jobs (.rotator (.enqueued "task")) ++ rotate 2

/-- An iteration that ends a tick whose jobs are all known. -/
def endIteration : List Event := rotate 7

/-- bootstrap_database, the public opening of tick 1 and the rotator's first iteration. -/
def firstTick : List Event := [.bootstrap, .publicSync] ++ bootstrapIteration 3

end KosSim.Platform
