import KosSim.GameTimer

/-!
Sequences of GameTimer operations on a fresh game_state row, executed one after
another under any clock. The rotator calls finish_boundary only while it holds a
tick that boundary_ready returned. A tick without a window is the state from
which no later operation except a stop leads back to a ticking game.
-/

namespace KosSim.TimerRuns
open Library GameTimer

inductive Operation where
  | ensureRow
  | syncScheduledStart (now : Int)
  | setDesired (desired : CTFState)
  | schedule (startAt stopAfterTick scoreboardFreezeTick : Option Int)
  | boundaryReady (now : Int)
  | finishBoundary (now : Int)
  deriving DecidableEq

structure Game where
  row : Option GameTimer
  boundary : Bool
  deriving DecidableEq

def fresh : Game := ⟨none, false⟩

/-- Every caller makes its object with load_timer in the same transaction. -/
def loaded (env : Settings) (game : Game) : Access := loadTimer env game.row

def perform (env : Settings) (game : Game) : Operation → Option Game
  | .ensureRow => some { game with row := some (loaded env game).row }
  | .syncScheduledStart now =>
      let access := syncScheduledStart env (loaded env game).timer (some (loaded env game).row) now
      some { game with row := some access.row }
  | .setDesired desired =>
      let access := setDesired env (loaded env game).timer (some (loaded env game).row) desired
      some { game with row := some access.row }
  | .schedule startAt stopAfterTick scoreboardFreezeTick =>
      let access := schedule env (loaded env game).timer (some (loaded env game).row)
        startAt stopAfterTick scoreboardFreezeTick
      some { game with row := some access.row }
  | .boundaryReady now =>
      some ⟨some (loaded env game).row, (boundaryReady (loaded env game).timer now).isSome⟩
  | .finishBoundary now =>
      if game.boundary then
        let access := finishBoundary env (loaded env game).timer (some (loaded env game).row) now
        some ⟨some access.row, false⟩
      else none

abbrev Played (env : Settings) (game : Game) : Prop := Steps (perform env) (fun _ _ => True) fresh game

def RowWindowed (env : Settings) (game : Game) : Prop := Windowed env (loaded env game).row

theorem loaded_some (env : Settings) (row : GameTimer) (boundary : Bool) :
    (loaded env ⟨some row, boundary⟩).row = row := rfl

theorem sync_row (env : Settings) (self row : GameTimer) (now : Int) :
    (syncScheduledStart env self (some row) now).row =
      (afterSync env (load self (some row)) now).getD row := by
  show (persist ⟨load self (some row), row⟩ (afterSync env (load self (some row)) now)).row = _
  cases afterSync env (load self (some row)) now <;> rfl

theorem perform_windowed (env : Settings) (before : Game) (operation : Operation) (after : Game)
    (windowed : RowWindowed env before) (taken : perform env before operation = some after) :
    RowWindowed env after := by
  have timerWindowed (self : GameTimer) : Windowed env (load self (some (loaded env before).row)) :=
    load_windowed env self _ windowed
  cases operation with
  | ensureRow => cases taken; exact windowed
  | syncScheduledStart now =>
      cases taken
      show Windowed env (syncScheduledStart env _ (some (loaded env before).row) now).row
      rw [sync_row]
      cases wrote : afterSync env (load (loaded env before).timer (some (loaded env before).row)) now with
      | none => exact windowed
      | some written => exact after_sync_windowed env _ written now (timerWindowed _) wrote
  | setDesired desired =>
      cases taken
      exact after_desired_windowed env _ desired (timerWindowed _)
  | schedule startAt stopAfterTick scoreboardFreezeTick =>
      cases taken
      exact timerWindowed (loaded env before).timer
  | boundaryReady now => cases taken; exact windowed
  | finishBoundary now =>
      simp only [perform] at taken
      split at taken
      · cases taken; exact after_boundary_windowed env _ now
      · cases taken

theorem played_windowed (env : Settings) (game : Game) (played : Played env game) :
    RowWindowed env game := by
  have start : RowWindowed env fresh := fresh_row_windowed env
  exact steps_invariant (RowWindowed env)
    (fun before operation after windowed _ taken => perform_windowed env before operation after
      windowed taken) start played

def Ticking (env : Settings) (row : GameTimer) : Prop :=
  row.state = .running ∧ 1 ≤ row.currentTick ∧
    ∃ start, row.tickStart = some start ∧ row.tickEnd = some (start + env.rotationSeconds)

def FiresAtEnd (row : GameTimer) : Prop :=
  ∃ stop, row.tickEnd = some stop ∧ ∀ now, stop ≤ now → ∃ tick, boundaryReady row now = some tick

theorem ticking_fires (env : Settings) (row : GameTimer) (ticking : Ticking env row) : FiresAtEnd row := by
  obtain ⟨running, opened, start, startSet, stopSet⟩ := ticking
  refine ⟨_, stopSet, ?_⟩
  intro now elapsed
  refine ⟨(row.currentTick, start, start + env.rotationSeconds), ?_⟩
  have positive : ¬ row.currentTick < 1 := by omega
  have late : ¬ now < start + env.rotationSeconds := by omega
  simp [boundaryReady, running, positive, startSet, stopSet, late]

/-- sync_scheduled_start opens a window only for tick 1; later ticks keep what the row has. -/
theorem after_sync_ticking_iff (env : Settings) (self written : GameTimer) (now : Int)
    (windowed : Windowed env self) (wrote : afterSync env self now = some written) :
    Ticking env written ↔ self.currentTick < 1 ∨ self.tickStart ≠ none := by
  unfold afterSync at wrote
  split at wrote
  · cases wrote
  split at wrote
  · cases wrote
  split at wrote
  · next unopened =>
    cases wrote
    exact ⟨fun _ => Or.inl unopened, fun _ => ⟨rfl, Int.le_refl 1, now, rfl, rfl⟩⟩
  · next opened =>
    cases wrote
    constructor
    · rintro ⟨_, _, start, startSet, _⟩
      have startSet : self.tickStart = some start := startSet
      exact Or.inr (by simp [startSet])
    · intro condition
      refine ⟨rfl, by show 1 ≤ self.currentTick; omega, ?_⟩
      rcases windowed with ⟨noStart, _⟩ | window
      · exact absurd noStart (condition.resolve_left opened)
      · exact window

/-- After a sync that finds the game desired and due, the game ticks exactly when
the row had no tick yet or still had the window of its tick. -/
theorem synced_game_ticks_iff (env : Settings) (game after : Game) (played : Played env game) (now : Int)
    (desired : (loaded env game).row.desiredState = .running)
    (due : startPending (loaded env game).row now = false)
    (taken : perform env game (.syncScheduledStart now) = some after) :
    (∃ row, after.row = some row ∧ Ticking env row ∧ FiresAtEnd row) ↔
      (loaded env game).row.currentTick < 1 ∨ (loaded env game).row.tickStart ≠ none := by
  have windowed := played_windowed env game played
  cases taken
  have row := sync_row env (loaded env game).timer (loaded env game).row now
  cases wrote : afterSync env (load (loaded env game).timer (some (loaded env game).row)) now with
  | none =>
      have pending : startPending (load (loaded env game).timer (some (loaded env game).row)) now =
          false := due
      have running : (load (loaded env game).timer (some (loaded env game).row)).desiredState = .running :=
        desired
      unfold afterSync at wrote
      simp only [running, ne_eq, not_true_eq_false, ↓reduceIte, pending, Bool.false_eq_true] at wrote
      split at wrote <;> cases wrote
  | some written =>
      rw [wrote, Option.getD_some] at row
      have exact_ := after_sync_ticking_iff env _ written now (load_windowed env _ _ windowed) wrote
      refine Iff.trans ?_ exact_
      constructor
      · rintro ⟨stored, same, ticking, _⟩
        rw [← Option.some.inj same] at ticking
        rwa [row] at ticking
      · intro ticking
        exact ⟨written, congrArg some row, ticking, ticking_fires env written ticking⟩

def Stuck (env : Settings) (game : Game) : Prop :=
  1 ≤ (loaded env game).row.currentTick ∧ (loaded env game).row.tickStart = none ∧
    (loaded env game).row.tickEnd = none ∧ game.boundary = false

/-- boundary_ready never fires again, so finish_boundary is out of reach too. -/
theorem stuck_until_stopped (env : Settings) (before : Game) (operation : Operation) (after : Game)
    (stuck : Stuck env before) (running : operation ≠ .setDesired .stopped)
    (taken : perform env before operation = some after) : Stuck env after := by
  obtain ⟨opened, noStart, noStop, idle⟩ := stuck
  have positive : ¬ (loaded env before).row.currentTick < 1 := by omega
  cases operation with
  | ensureRow => cases taken; exact ⟨opened, noStart, noStop, idle⟩
  | syncScheduledStart now =>
      cases taken
      have row := sync_row env (loaded env before).timer (loaded env before).row now
      have kept : afterSync env (load (loaded env before).timer (some (loaded env before).row)) now = none ∨
          afterSync env (load (loaded env before).timer (some (loaded env before).row)) now =
            some { load (loaded env before).timer (some (loaded env before).row) with
              state := .running } := by
        unfold afterSync
        split
        · exact Or.inl rfl
        split
        · exact Or.inl rfl
        split
        · next unopened => exact absurd unopened positive
        · exact Or.inr rfl
      rcases kept with silent | wrote
      · rw [silent, Option.getD_none] at row
        refine ⟨?_, ?_, ?_, idle⟩ <;> simp only [loaded_some, row] <;> assumption
      · rw [wrote, Option.getD_some] at row
        refine ⟨?_, ?_, ?_, idle⟩ <;> simp only [loaded_some, row, load] <;> assumption
  | setDesired desired =>
      cases taken
      cases desired with
      | stopped => exact absurd rfl running
      | suspended =>
          refine ⟨?_, ?_, ?_, idle⟩ <;> simp only [loaded_some, setDesired, persist, afterDesired] <;>
            split <;> assumption
      | running =>
          refine ⟨?_, ?_, ?_, idle⟩ <;> simp only [loaded_some, setDesired, persist, afterDesired] <;>
            split <;> assumption
  | schedule startAt stopAfterTick scoreboardFreezeTick =>
      cases taken
      exact ⟨opened, noStart, noStop, idle⟩
  | boundaryReady now =>
      cases taken
      have never : boundaryReady (loaded env before).timer now = none := by
        have noStart : (loaded env before).timer.tickStart = none := noStart
        simp [boundaryReady, noStart]
      exact ⟨opened, noStart, noStop, by simp [never]⟩
  | finishBoundary now => simp [perform, idle] at taken

def firstTick : Game :=
  ⟨some { state := .running, desiredState := .running, currentTick := 1,
          tickStart := some 0, tickEnd := some 120 }, false⟩

/-- A second sync inside tick 1 keeps its window. -/
theorem first_tick_ticks :
    ∃ row, firstTick.row = some row ∧ Ticking (defaultSettings id) row ∧ FiresAtEnd row :=
  (synced_game_ticks_iff (defaultSettings id) firstTick firstTick
    ((Steps.refl fresh).snoc (.syncScheduledStart 0) trivial (by decide)) 60
    (by decide) (by decide) (by decide)).mpr (Or.inr (by decide))

def suspendedRun : List Operation :=
  [.syncScheduledStart 0, .setDesired .suspended, .boundaryReady 120, .finishBoundary 120,
    .setDesired .running]

/-- Pause during tick 1 and resume after it: tick 1 is kept without a window. -/
theorem resumed_game_is_stuck :
    ∃ game after row, exec (perform (defaultSettings id)) (fun _ _ => True) fresh suspendedRun = some game ∧
      perform (defaultSettings id) game (.syncScheduledStart 200) = some after ∧
      (loaded (defaultSettings id) game).row.desiredState = .running ∧
      startPending (loaded (defaultSettings id) game).row 200 = false ∧
      after.row = some row ∧ ¬ Ticking (defaultSettings id) row ∧ ∀ now, boundaryReady row now = none := by
  refine ⟨_, _, _, rfl, rfl, rfl, rfl, rfl, ?_, fun _ => rfl⟩
  rintro ⟨_, _, start, missing, _⟩
  cases missing

end KosSim.TimerRuns
