import KosSim.Library.Runs

/-!
game_timer.py: the game clock kept in the single row of game_state. The columns
of the row are the fields of the GameTimer object. Every method loads the row,
changes the object and writes all columns back; the pure change is a definition
of its own (`afterSync` and so on), because several clients share the row.
-/

namespace KosSim

/-- The environment variables that the control plane reads. -/
structure Settings where
  rotationSeconds : Int                    -- ROTATION_SECONDS
  autoStart : Bool                         -- GAME_AUTO_START
  freezeTickFromEnv : Option Int           -- SCOREBOARD_FREEZE_TICK, none for "" and "0"
  submissionPoints : Int                   -- SUBMISSION_POINTS
  flagRetentionTicks : Int                 -- FLAG_RETENTION_TICKS
  maxAcceptedPerRound : Int                -- MAX_ACCEPTED_PER_TEAM_PER_ROUND
  checkerMaxAttempts : Int                 -- CHECKER_MAX_ATTEMPTS
  teamTokenPrefix : String                 -- TEAM_TOKEN_PREFIX
  hmac : List UInt8 → List UInt8           -- HMAC-SHA256 under SECRET_FLAG_KEY
  numeric : Rat → Rat                      -- how a NUMERIC(14, 4) column stores a value
  indexFits : List Char → Bool             -- whether a btree entry of 2704 bytes has room for a flag
  shortFits : ∀ text : List Char, text.length ≤ 650 → indexFits text = true

/-- The defaults of the environment. SECRET_FLAG_KEY has none, so the digest is open. -/
def defaultSettings (hmac : List UInt8 → List UInt8) : Settings where
  rotationSeconds := 120
  autoStart := true
  freezeTickFromEnv := none
  submissionPoints := 1
  flagRetentionTicks := 5
  maxAcceptedPerRound := 0
  checkerMaxAttempts := 2
  teamTokenPrefix := "submit-"
  hmac := hmac
  numeric := id
  indexFits := fun text => decide (text.length ≤ 650)
  shortFits := fun _ short => decide_eq_true short

def retentionTicks (env : Settings) : Int := max 1 env.flagRetentionTicks

inductive CTFState where
  | stopped
  | suspended
  | running
  deriving DecidableEq, Repr

structure GameTimer where
  state : CTFState := .stopped
  desiredState : CTFState := .stopped
  currentTick : Int := 0
  tickStart : Option Int := none
  tickEnd : Option Int := none
  startAt : Option Int := none
  stopAfterTick : Option Int := none
  scoreboardFreezeTick : Option Int := none
  deriving DecidableEq, Repr

namespace GameTimer

def new (env : Settings) : GameTimer := { scoreboardFreezeTick := env.freezeTickFromEnv }

/-- A NULL scoreboard_freeze_tick leaves the value that the object already has. -/
def load (self : GameTimer) : Option GameTimer → GameTimer
  | none => self
  | some row =>
      { row with
        scoreboardFreezeTick := match row.scoreboardFreezeTick with
          | some freeze => some freeze
          | none => self.scoreboardFreezeTick }

/-- The object next to the row as the transaction sees it. -/
structure Access where
  timer : GameTimer
  row : GameTimer
  deriving DecidableEq, Repr

def freshRow (env : Settings) : GameTimer :=
  let desired := if env.autoStart then CTFState.running else CTFState.stopped
  { state := desired, desiredState := desired, scoreboardFreezeTick := env.freezeTickFromEnv }

def ensureRow (env : Settings) (self : GameTimer) (row : Option GameTimer) : Access :=
  let stored := row.getD (freshRow env)
  ⟨load self (some stored), stored⟩

def persist (loaded : Access) : Option GameTimer → Access
  | none => loaded
  | some timer => ⟨timer, timer⟩

def openTick (env : Settings) (self : GameTimer) (now tick : Int) : GameTimer :=
  { self with
    currentTick := tick
    tickStart := some now
    tickEnd := some (now + env.rotationSeconds)
    state := .running }

def startPending (self : GameTimer) (now : Int) : Bool :=
  match self.startAt with
  | some start => decide (now < start)
  | none => false

/-- None stands for the early returns, which write nothing. -/
def afterSync (env : Settings) (self : GameTimer) (now : Int) : Option GameTimer :=
  if self.desiredState ≠ .running then none
  else if startPending self now then none
  else if self.currentTick < 1 then some (openTick env { self with state := .running } now 1)
  else some { self with state := .running }

def syncScheduledStart (env : Settings) (self : GameTimer) (row : Option GameTimer) (now : Int) : Access :=
  let loaded := ensureRow env self row
  persist loaded (afterSync env loaded.timer now)

def boundaryReady (self : GameTimer) (now : Int) : Option (Int × Int × Int) :=
  if self.state ≠ .running then none
  else if self.currentTick < 1 then none
  else match self.tickStart, self.tickEnd with
    | some start, some stop => if now < stop then none else some (self.currentTick, start, stop)
    | _, _ => none

def stopReached (self : GameTimer) : Bool :=
  match self.stopAfterTick with
  | some last => decide (last ≤ self.currentTick)
  | none => false

def afterBoundary (env : Settings) (self : GameTimer) (now : Int) : GameTimer :=
  let closed := self.currentTick
  if self.desiredState ≠ .running then
    { self with
      state := self.desiredState
      currentTick := if self.desiredState = .stopped then 0 else closed
      tickStart := none
      tickEnd := none }
  else if stopReached self then
    { self with state := .stopped, desiredState := .stopped, tickStart := none, tickEnd := none }
  else openTick env self now (closed + 1)

def finishBoundary (env : Settings) (self : GameTimer) (row : Option GameTimer) (now : Int) : Access :=
  let loaded := ensureRow env self row
  persist loaded (some (afterBoundary env loaded.timer now))

def afterDesired (self : GameTimer) (desired : CTFState) : GameTimer :=
  let self := { self with desiredState := desired }
  match desired with
  | .stopped => { self with state := .stopped, currentTick := 0, tickStart := none, tickEnd := none }
  | .suspended =>
      -- A running game is suspended by finish_boundary, after the tick in flight.
      if self.state = .running then self else { self with state := .suspended }
  | .running =>
      if self.state = .stopped ∧ self.currentTick < 1 then { self with state := .running } else self

def setDesired (env : Settings) (self : GameTimer) (row : Option GameTimer) (desired : CTFState) : Access :=
  let loaded := ensureRow env self row
  persist loaded (some (afterDesired loaded.timer desired))

def afterSchedule (self : GameTimer) (startAt stopAfterTick scoreboardFreezeTick : Option Int) :
    GameTimer :=
  { self with
    startAt := startAt.or self.startAt
    stopAfterTick := stopAfterTick.or self.stopAfterTick
    scoreboardFreezeTick := scoreboardFreezeTick.or self.scoreboardFreezeTick }

def schedule (env : Settings) (self : GameTimer) (row : Option GameTimer)
    (startAt stopAfterTick scoreboardFreezeTick : Option Int) : Access :=
  let loaded := ensureRow env self row
  persist loaded (some (afterSchedule loaded.timer startAt stopAfterTick scoreboardFreezeTick))

/-- load_timer: a new object over the row. -/
def loadTimer (env : Settings) (row : Option GameTimer) : Access := ensureRow env (new env) row

/-! What the methods do to the tick and its window. `Windowed` is what every
write keeps: both ends of the window are set together, one rotation apart. -/

def Windowed (env : Settings) (row : GameTimer) : Prop :=
  (row.tickStart = none ∧ row.tickEnd = none) ∨
    ∃ start, row.tickStart = some start ∧ row.tickEnd = some (start + env.rotationSeconds)

theorem open_tick_windowed (env : Settings) (self : GameTimer) (now tick : Int) :
    Windowed env (openTick env self now tick) := Or.inr ⟨now, rfl, rfl⟩

theorem load_windowed (env : Settings) (self row : GameTimer) (windowed : Windowed env row) :
    Windowed env (load self (some row)) := windowed

theorem fresh_row_windowed (env : Settings) : Windowed env (freshRow env) := Or.inl ⟨rfl, rfl⟩

theorem after_sync_windowed (env : Settings) (self written : GameTimer) (now : Int)
    (windowed : Windowed env self) (wrote : afterSync env self now = some written) :
    Windowed env written := by
  unfold afterSync at wrote
  split at wrote
  · cases wrote
  split at wrote
  · cases wrote
  split at wrote
  · cases wrote; exact open_tick_windowed env _ now 1
  · cases wrote; exact windowed

theorem after_boundary_windowed (env : Settings) (self : GameTimer) (now : Int) :
    Windowed env (afterBoundary env self now) := by
  unfold afterBoundary
  split
  · exact Or.inl ⟨rfl, rfl⟩
  split
  · exact Or.inl ⟨rfl, rfl⟩
  · exact open_tick_windowed env self now _

theorem after_desired_windowed (env : Settings) (self : GameTimer) (desired : CTFState)
    (windowed : Windowed env self) : Windowed env (afterDesired self desired) := by
  cases desired with
  | stopped => exact Or.inl ⟨rfl, rfl⟩
  | suspended => unfold afterDesired; dsimp only; split <;> exact windowed
  | running => unfold afterDesired; dsimp only; split <;> exact windowed

theorem boundary_ready_some (self : GameTimer) (now tick start stop : Int)
    (ready : boundaryReady self now = some (tick, start, stop)) :
    self.state = .running ∧ 1 ≤ self.currentTick ∧ tick = self.currentTick ∧
      self.tickStart = some start ∧ self.tickEnd = some stop ∧ stop ≤ now := by
  unfold boundaryReady at ready
  by_cases running : self.state = .running
  · by_cases unopened : self.currentTick < 1
    · simp [running, unopened] at ready
    · cases startSet : self.tickStart with
      | none => simp [running, unopened, startSet] at ready
      | some first =>
          cases stopSet : self.tickEnd with
          | none => simp [running, unopened, startSet, stopSet] at ready
          | some last =>
              by_cases early : now < last
              · simp [running, unopened, startSet, stopSet, early] at ready
              · simp only [running, unopened, startSet, stopSet, early, ne_eq, not_true_eq_false,
                  ↓reduceIte, Option.some.injEq, Prod.mk.injEq] at ready
                obtain ⟨rfl, rfl, rfl⟩ := ready
                exact ⟨running, by omega, rfl, rfl, rfl, by omega⟩
  · simp [running] at ready

end GameTimer
end KosSim
