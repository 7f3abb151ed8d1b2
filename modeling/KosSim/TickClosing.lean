import KosSim.ScoringBlocked
import KosSim.TickRounds

/-!
The two ends of a tick: its boundary, which scores the tick before it unless a checker
job of that tick is still active, and finish_boundary, which ends the game, suspends it
or opens the next tick. A _score_tick writes the rows of all pairs for its tick.
-/

namespace KosSim.TickClosing
open Library Schema Scoring ScoringLedger CheckerJobs Rotator Platform PlatformFrames TickRounds
    ScoringBlocked

/-- A boundary does not defer the scoring of the tick before it. -/
def scoresPrevious (env : Settings) (state : State) : Event → Bool
  | .rotator .next =>
      match state.loop with
      | .boundary _ _ round startedAt =>
          let (opened, tick) := ensureFlagRound env state.db round.roundId round.startsAt round.endsAt
          decide (tick ≤ 1) ||
            checkerTickReady (finalizeTick opened (tick - 1) startedAt).checker (tick - 1)
      | _ => true
  | _ => true

def undeferred (env : Settings) (state : State) (event : Event) : Prop :=
  playing event = true ∧ scoresPrevious env state event = true

instance (env : Settings) (state : State) (event : Event) : Decidable (undeferred env state event) :=
  inferInstanceAs (Decidable (_ ∧ _))

/-! The keys that _persist_tick_points adds. -/

theorem persist_keys {env : Settings} {db : Db} {tick : Int} (entries : List (Pair × TeamPointsLite))
    {table last : Dict (Int × Int × Int) TeamTickPoints}
    (done : entries.foldlM (persistOne env db tick) table = .ok last) (key : Int × Int × Int) :
    key ∈ last.keys ↔ (key.1 = tick ∧ key.2 ∈ entries.map Prod.fst) ∨ key ∈ table.keys := by
  induction entries generalizing table with
  | nil =>
      rw [← Except.ok.inj done]
      simp
  | cons entry rest ih =>
      rw [List.foldlM_cons] at done
      cases first : persistOne env db tick table entry with
      | error error => rw [first] at done; cases done
      | ok middle =>
          rw [first] at done
          have here : key = (tick, entry.1.1, entry.1.2) ↔ key.1 = tick ∧ key.2 = entry.1 := by
            constructor
            · rintro rfl
              exact ⟨rfl, rfl⟩
            · rintro ⟨rfl, same⟩
              rw [← same]
          rw [ih done, (persist_one_cases first).2.2, Dict.mem_keys_set, here, List.map_cons, List.mem_cons]
          constructor
          · rintro (⟨ticked, later⟩ | ⟨ticked, same⟩ | old)
            · exact Or.inl ⟨ticked, Or.inr later⟩
            · exact Or.inl ⟨ticked, Or.inl same⟩
            · exact Or.inr old
          · rintro (⟨ticked, same | later⟩ | old)
            · exact Or.inr (Or.inl ⟨ticked, same⟩)
            · exact Or.inl ⟨ticked, later⟩
            · exact Or.inr (Or.inr old)

theorem scored_pair_iff (db : Db) (tick retention : Int) (flags : List StolenFlag) (pair : Pair) :
    pair ∈ (scoredPoints db tick retention flags).keys ↔
      pair.1 ∈ db.teams.keys ∧ pair.2 ∈ db.services.keys := by
  constructor
  · intro member
    obtain ⟨team, service, _⟩ := scored_pair_known db tick retention flags pair member
    exact ⟨(Dict.contains_iff _ _).mp team, (Dict.contains_iff _ _).mp service⟩
  · rintro ⟨team, service⟩
    have inside : known (loadServices db) (loadTeamIds db).1 pair := by
      refine ⟨(mem_by_key db.teams pair.1).mpr team, ?_⟩
      rw [load_services_ids]
      exact (mem_by_key db.services pair.2).mpr service
    rw [scoredPoints, scored_keys, Dict.mem_keys_iff, initial_points_known _ _ _ _ inside]
    exact Option.some_ne_none _

/-- _score_tick adds the rows of all pairs for its tick. -/
theorem score_tick_keys {env : Settings} {db after : Db} {tick retention : Int} (first : 1 ≤ tick)
    (done : scoreTick env db tick retention = .ok after) (key : Int × Int × Int) :
    key ∈ after.scoring.teamTickPoints.keys ↔
      (key.1 = tick ∧ key.2.1 ∈ db.teams.keys ∧ key.2.2 ∈ db.services.keys) ∨
        key ∈ db.scoring.teamTickPoints.keys := by
  rcases score_tick_cases done with ⟨same, early | nobody⟩ | ⟨_, _, _, flags, table, _, _, _, stored, same⟩
  · omega
  · have none_ : ¬ (key.2.1 ∈ db.teams.keys ∧ key.2.2 ∈ db.services.keys) := by
      rintro ⟨team, service⟩
      rcases nobody with services | teams
      · rw [Dict.keys, services] at service
        cases service
      · rw [Dict.keys, teams] at team
        cases team
    rw [same]
    constructor
    · exact Or.inr
    · rintro (⟨_, pair⟩ | old)
      · exact absurd pair none_
      · exact old
  · rw [same, ← scored_pair_iff db tick retention flags key.2]
    exact persist_keys _ stored key

/-! The end of a tick. -/

/-- Whether finish_boundary opens the next tick. -/
def goesOn (row : GameTimer) : Bool := decide (row.desiredState = .running) && !GameTimer.stopReached row

theorem finished_running (env : Settings) (access : GameTimer.Access) (now : Int) :
    (finishedRow env access now).state = .running ↔ goesOn access.row = true := by
  have finished : finishedRow env access now =
      GameTimer.afterBoundary env (GameTimer.load access.timer (some access.row)) now := rfl
  have reached : GameTimer.stopReached (GameTimer.load access.timer (some access.row)) =
      GameTimer.stopReached access.row := rfl
  have desired : (GameTimer.load access.timer (some access.row)).desiredState =
      access.row.desiredState := rfl
  rw [finished, GameTimer.afterBoundary, goesOn, reached, desired]
  by_cases wanted : access.row.desiredState = .running
  · cases GameTimer.stopReached access.row with
    | true => simp [wanted]
    | false => simp [wanted, GameTimer.openTick]
  · simp [wanted]

def setUp : State :=
  (exec (step sampleSettings sampleDeployment) (fun _ _ => True) (initial 1000000000)
    [.bootstrap]).getD (initial 0)

theorem set_up_unplayed : Unplayed setUp :=
  ⟨by decide +kernel, by decide +kernel, fun row stored => by
    have none_ : setUp.db.gameState = none := by decide +kernel
    rw [none_] at stored
    cases stored⟩

end KosSim.TickClosing
