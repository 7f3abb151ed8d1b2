import KosSim.GameTimer
import KosSim.Library.SharedRow

/-!
The clients of the game_state row: public handlers that call
sync_scheduled_start, the admin's commands and the rotator's iterations, each
one transaction that loads the row and later persists all its columns. Handlers
that never commit are clients that roll back.
-/

namespace KosSim.TimerClients
open Library Library.SharedRow GameTimer

inductive TimerOp where
  | syncScheduledStart
  | setDesired (desired : CTFState)
  | schedule (startAt stopAfterTick scoreboardFreezeTick : Option Int)
  | finishBoundary
  deriving DecidableEq

/-- What an operation persists after it has loaded `row` into its object. -/
def act (env : Settings) (operation : TimerOp) (now : Int) (row : GameTimer) : Option GameTimer :=
  let self := load (GameTimer.new env) (some row)
  match operation with
  | .syncScheduledStart => afterSync env self now
  | .setDesired desired => some (afterDesired self desired)
  | .schedule startAt stopAfterTick scoreboardFreezeTick =>
      some (afterSchedule self startAt stopAfterTick scoreboardFreezeTick)
  | .finishBoundary => some (afterBoundary env self now)

inductive Request where
  | status                    -- game_status, current_round, wait_for_next_round, a rotator poll
  | start
  | pause
  | stop
  | schedule (startAt stopAfterTick scoreboardFreezeTick : Option Int)
  | boundary                  -- a rotator iteration in which boundary_ready fired
  deriving DecidableEq

def Request.operations : Request → List TimerOp
  | .status => [.syncScheduledStart]
  | .start => [.setDesired .running, .syncScheduledStart]
  | .pause => [.setDesired .suspended]
  | .stop => [.setDesired .stopped]
  | .schedule startAt stopAfterTick scoreboardFreezeTick =>
      [.schedule startAt stopAfterTick scoreboardFreezeTick]
  | .boundary => [.syncScheduledStart, .finishBoundary]

/-! The effect each request may have on the committed row. -/

/-- A freeze tick once set stays; a NULL may be filled from the environment. -/
def SameFreeze (before after : GameTimer) : Prop :=
  ∀ freeze, before.scoreboardFreezeTick = some freeze → after.scoreboardFreezeTick = some freeze

def SameSchedule (before after : GameTimer) : Prop :=
  after.startAt = before.startAt ∧ after.stopAfterTick = before.stopAfterTick ∧ SameFreeze before after

def Effect : Request → GameTimer → GameTimer → Prop
  | .status, before, after =>
      after.desiredState = before.desiredState ∧ SameSchedule before after ∧
        before.currentTick ≤ after.currentTick
  | .start, before, after =>
      after.desiredState = .running ∧ SameSchedule before after ∧ before.currentTick ≤ after.currentTick
  | .pause, before, after =>
      after.desiredState = .suspended ∧ SameSchedule before after ∧ before.currentTick ≤ after.currentTick
  | .stop, before, after => after.desiredState = .stopped ∧ SameSchedule before after
  | .schedule startAt stopAfterTick scoreboardFreezeTick, before, after =>
      after.desiredState = before.desiredState ∧ after.startAt = startAt.or before.startAt ∧
        after.stopAfterTick = stopAfterTick.or before.stopAfterTick ∧
        (∀ freeze, scoreboardFreezeTick.or before.scoreboardFreezeTick = some freeze →
          after.scoreboardFreezeTick = some freeze) ∧
        before.currentTick ≤ after.currentTick
  | .boundary, before, after =>
      SameSchedule before after ∧
        (after.desiredState = before.desiredState ∨
          (before.desiredState = .running ∧ before.stopAfterTick ≠ none ∧ after.desiredState = .stopped)) ∧
        (before.currentTick ≤ after.currentTick ∨ before.desiredState = .stopped)

theorem load_freeze (env : Settings) (row : GameTimer) :
    SameFreeze row (load (GameTimer.new env) (some row)) := by
  intro freeze present
  simp [load, present]

theorem after_sync_effect (env : Settings) (row written : GameTimer) (now : Int)
    (wrote : act env .syncScheduledStart now row = some written) : Effect .status row written := by
  simp only [act, afterSync] at wrote
  split at wrote
  · cases wrote
  split at wrote
  · cases wrote
  split at wrote
  · next unopened =>
    cases wrote
    have below : row.currentTick < 1 := unopened
    exact ⟨rfl, ⟨rfl, rfl, load_freeze env row⟩, by show row.currentTick ≤ 1; omega⟩
  · cases wrote
    exact ⟨rfl, ⟨rfl, rfl, load_freeze env row⟩, Int.le_refl _⟩

theorem after_desired_effect (env : Settings) (row : GameTimer) (desired : CTFState) :
    (afterDesired (load (GameTimer.new env) (some row)) desired).desiredState = desired ∧
      SameSchedule row (afterDesired (load (GameTimer.new env) (some row)) desired) ∧
      (desired ≠ .stopped →
        (afterDesired (load (GameTimer.new env) (some row)) desired).currentTick = row.currentTick) := by
  cases desired with
  | stopped => exact ⟨rfl, ⟨rfl, rfl, load_freeze env row⟩, fun other => absurd rfl other⟩
  | suspended =>
      unfold afterDesired
      dsimp only
      split <;> exact ⟨rfl, ⟨rfl, rfl, load_freeze env row⟩, fun _ => rfl⟩
  | running =>
      unfold afterDesired
      dsimp only
      split <;> exact ⟨rfl, ⟨rfl, rfl, load_freeze env row⟩, fun _ => rfl⟩

theorem after_boundary_effect (env : Settings) (row : GameTimer) (now : Int) :
    Effect .boundary row (afterBoundary env (load (GameTimer.new env) (some row)) now) := by
  have stored : (load (GameTimer.new env) (some row)).desiredState = row.desiredState := rfl
  unfold afterBoundary
  dsimp only
  split
  · refine ⟨⟨rfl, rfl, load_freeze env row⟩, Or.inl rfl, ?_⟩
    by_cases stopped : row.desiredState = .stopped
    · exact Or.inr stopped
    · simp only [stored, stopped, ↓reduceIte]
      exact Or.inl (Int.le_refl _)
  · next running =>
    have running : row.desiredState = .running := Decidable.not_not.mp running
    split
    · next reached =>
      have limited : row.stopAfterTick ≠ none := by
        intro unset
        have unset : (load (GameTimer.new env) (some row)).stopAfterTick = none := unset
        simp [stopReached, unset] at reached
      exact ⟨⟨rfl, rfl, load_freeze env row⟩, Or.inr ⟨running, limited, rfl⟩, Or.inl (Int.le_refl _)⟩
    · refine ⟨⟨rfl, rfl, load_freeze env row⟩, Or.inl rfl, Or.inl ?_⟩
      show row.currentTick ≤ row.currentTick + 1
      omega

theorem same_schedule_trans {first middle last : GameTimer} (one : SameSchedule first middle)
    (two : SameSchedule middle last) : SameSchedule first last :=
  ⟨two.1.trans one.1, two.2.1.trans one.2.1, fun freeze present => two.2.2 freeze (one.2.2 freeze present)⟩

theorem same_schedule_refl (row : GameTimer) : SameSchedule row row := ⟨rfl, rfl, fun _ present => present⟩

/-- One logged sync, whether it wrote or not, has the effect of a status request. -/
theorem sync_entry_effect (env : Settings) (wrote : Option Int) (row after : GameTimer)
    (replayed : replay (act env) [(.syncScheduledStart, wrote)] row = some after) :
    Effect .status row after := by
  cases wrote with
  | none =>
      cases replayed
      exact ⟨rfl, same_schedule_refl row, Int.le_refl _⟩
  | some now =>
      obtain ⟨written, stored, same⟩ := Option.bind_eq_some_iff.mp replayed
      rw [← Option.some.inj same]
      exact after_sync_effect env row written now stored

/-- The other operations always write, so their log entries carry a time. -/
theorem entry_written (env : Settings) (operation : TimerOp) (wrote : Option Int)
    (other : operation ≠ .syncScheduledStart)
    (quiet : wrote = none → ∃ now row, act env operation now row = none) : ∃ now, wrote = some now := by
  cases wrote with
  | some now => exact ⟨now, rfl⟩
  | none =>
      obtain ⟨now, row, silent⟩ := quiet rfl
      cases operation with
      | syncScheduledStart => exact absurd rfl other
      | setDesired desired => cases silent
      | schedule startAt stopAfterTick scoreboardFreezeTick => cases silent
      | finishBoundary => cases silent

theorem replayed_effect (env : Settings) (request : Request) (log : List (TimerOp × Option Int))
    (row after : GameTimer) (asked : log.map Prod.fst = request.operations)
    (quiet : ∀ operation, (operation, none) ∈ log → ∃ now row, act env operation now row = none)
    (replayed : replay (act env) log row = some after) : Effect request row after := by
  -- A one-operation request that always writes leaves one stamped entry.
  have single (operation : TimerOp) (other : operation ≠ .syncScheduledStart)
      (same : log.map Prod.fst = [operation]) : ∃ now, act env operation now row = some after := by
    obtain ⟨entry, rest, rfl, first, none_⟩ := List.map_eq_cons_iff.mp same
    have empty := List.map_eq_nil_iff.mp none_
    subst empty
    obtain ⟨done, wrote⟩ := entry
    have first : done = operation := first
    subst first
    obtain ⟨now, rfl⟩ := entry_written env done wrote other fun silent =>
      quiet done (by rw [silent]; exact List.mem_cons_self)
    obtain ⟨written, stored, last⟩ := Option.bind_eq_some_iff.mp replayed
    exact ⟨now, by rw [stored, Option.some.inj last]⟩
  -- Two operations split into the replay of the first and of the second.
  have double (first second : TimerOp) (same : log.map Prod.fst = [first, second]) :
      ∃ one two middle, replay (act env) [(first, one)] row = some middle ∧
        replay (act env) [(second, two)] middle = some after ∧
        (one = none → ∃ now row, act env first now row = none) ∧
        (two = none → ∃ now row, act env second now row = none) := by
    obtain ⟨entry, rest, rfl, firstSame, restSame⟩ := List.map_eq_cons_iff.mp same
    obtain ⟨other, tail, rfl, secondSame, tailSame⟩ := List.map_eq_cons_iff.mp restSame
    have empty := List.map_eq_nil_iff.mp tailSame
    subst empty
    obtain ⟨done, one⟩ := entry
    obtain ⟨later, two⟩ := other
    have firstSame : done = first := firstSame
    have secondSame : later = second := secondSame
    subst firstSame secondSame
    have split : replay (act env) ([(done, one)] ++ [(later, two)]) row = some after := replayed
    rw [replay_append] at split
    obtain ⟨middle, head, last⟩ := Option.bind_eq_some_iff.mp split
    refine ⟨one, two, middle, head, last, ?_, ?_⟩
    · intro silent; exact quiet done (by simp [silent])
    · intro silent; exact quiet later (by simp [silent])
  cases request with
  | status =>
      obtain ⟨entry, rest, rfl, first, none_⟩ := List.map_eq_cons_iff.mp asked
      have empty := List.map_eq_nil_iff.mp none_
      subst empty
      obtain ⟨done, wrote⟩ := entry
      have first : done = .syncScheduledStart := first
      subst first
      exact sync_entry_effect env wrote row after replayed
  | start =>
      obtain ⟨one, two, middle, head, last, quietOne, _⟩ := double _ _ asked
      obtain ⟨now, rfl⟩ := entry_written env _ one (by simp) quietOne
      obtain ⟨written, stored, same⟩ := Option.bind_eq_some_iff.mp head
      cases stored
      cases same
      obtain ⟨desired, schedule, tick⟩ := after_desired_effect env row .running
      obtain ⟨kept, scheduleKept, grows⟩ := sync_entry_effect env two _ after last
      exact ⟨kept.trans desired, same_schedule_trans schedule scheduleKept, by
        rw [tick (by simp)] at grows; exact grows⟩
  | pause =>
      obtain ⟨now, stored⟩ := single _ (by simp) asked
      cases stored
      obtain ⟨desired, schedule, tick⟩ := after_desired_effect env row .suspended
      exact ⟨desired, schedule, Int.le_of_eq (tick (by simp)).symm⟩
  | stop =>
      obtain ⟨now, stored⟩ := single _ (by simp) asked
      cases stored
      exact ⟨(after_desired_effect env row .stopped).1, (after_desired_effect env row .stopped).2.1⟩
  | schedule startAt stopAfterTick scoreboardFreezeTick =>
      obtain ⟨now, stored⟩ := single _ (by simp) asked
      cases stored
      refine ⟨rfl, rfl, rfl, ?_, Int.le_refl _⟩
      intro freeze present
      cases given : scoreboardFreezeTick with
      | some value =>
          rw [given] at present
          simpa [afterSchedule, given] using present
      | none =>
          rw [given] at present
          have kept := load_freeze env row freeze (by simpa using present)
          simpa [afterSchedule, given] using kept
  | boundary =>
      obtain ⟨one, two, middle, head, last, _, quietTwo⟩ := double _ _ asked
      obtain ⟨now, rfl⟩ := entry_written env _ two (by simp) quietTwo
      obtain ⟨written, stored, same⟩ := Option.bind_eq_some_iff.mp last
      cases stored
      cases same
      obtain ⟨kept, schedule, grows⟩ := sync_entry_effect env one row middle head
      obtain ⟨scheduleKept, desired, tick⟩ := after_boundary_effect env middle now
      refine ⟨same_schedule_trans schedule scheduleKept, ?_, ?_⟩
      · rw [kept, schedule.2.1] at desired
        exact desired
      · rw [kept] at tick
        rcases tick with more | stopped
        · exact Or.inl (Int.le_trans grows more)
        · exact Or.inr stopped

/-! What every step keeps: a commit has the effect of its request on the row
that is committed at that moment, and no other step changes the committed row. -/

abbrev Clients := Shared GameTimer TimerOp

def CommandsKept (before : Clients) (event : Event TimerOp) (after : Clients) : Prop :=
  match event with
  | .commit client => ∀ txn request, before.clients.get? client = some txn →
      txn.request = request.operations → Effect request before.row after.row
  | _ => after.row = before.row

theorem fresh_runs_keep_commands (env : Settings) (row : GameTimer) (before after : Clients)
    (event : Event TimerOp)
    (run : Steps (step (act env)) (fun state event => fresh (act env) state event = true)
      (initial row) before)
    (taken : step (act env) before event = some after) : CommandsKept before event after := by
  have serial := run_serial row before run
  cases event with
  | commit client =>
      intro txn request present asked
      obtain ⟨order, quiet, replayed⟩ := commit_replays serial present taken
      exact replayed_effect env request txn.log before.row after.row (order.trans asked) quiet replayed
  | start client request => exact row_kept (act env) before _ after (by simp) taken
  | load client => exact row_kept (act env) before _ after (by simp) taken
  | act client now => exact row_kept (act env) before _ after (by simp) taken
  | rollback client => exact row_kept (act env) before _ after (by simp) taken

def tickOne : GameTimer :=
  { state := .running, desiredState := .running, currentTick := 1, tickStart := some 0,
    tickEnd := some 120 }

def pauseAt60 : List (Event TimerOp) := [.start 0 Request.pause.operations, .load 0, .act 0 60]

/-- A second client comes while the first holds the row, and loads it behind the first one's commit. -/
def scheduleBehindPause : List (Event TimerOp) :=
  pauseAt60 ++ [.start 1 (Request.schedule none (some 4) none).operations, .commit 0, .load 1, .act 1 61]

def pausedOne : GameTimer := { tickOne with desiredState := .suspended }

def scheduling : Clients :=
  ⟨pausedOne, some (1, { pausedOne with stopAfterTick := some 4 }),
    Dict.empty.set 1 ⟨(Request.schedule none (some 4) none).operations, [], none,
      [(.schedule none (some 4) none, some 61)]⟩⟩

def scheduled : Clients := ⟨{ pausedOne with stopAfterTick := some 4 }, none, Dict.empty⟩

theorem second_command_kept : CommandsKept scheduling (.commit 1) scheduled :=
  fresh_runs_keep_commands (defaultSettings id) tickOne scheduling scheduled (.commit 1)
    (exec_steps scheduleBehindPause _ _ (by decide +kernel)) (by decide +kernel)

/-- A public status request loads the row before the pause and persists it afterwards. -/
def statusAroundPause : List (Event TimerOp) :=
  [.start 1 Request.status.operations, .load 1] ++ pauseAt60 ++ [.commit 0, .act 1 61]

theorem stale_status_undoes_pause :
    ∃ before after, exec (step (act (defaultSettings id))) (fun _ _ => True) (initial tickOne)
        statusAroundPause = some before ∧
      step (act (defaultSettings id)) before (.commit 1) = some after ∧
      before.row.desiredState = .suspended ∧ after.row.desiredState = .running ∧
      ¬ CommandsKept before (.commit 1) after := by
  refine ⟨_, _, rfl, rfl, rfl, rfl, ?_⟩
  intro kept
  have effect := kept _ .status rfl rfl
  cases effect.1

end KosSim.TimerClients
