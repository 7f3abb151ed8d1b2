import Mathlib.Logic.Relation
import Mathlib.Tactic.Cases

/-!
Work on one job in numbered attempts. A worker that begins an attempt holds it until it
settles the attempt or drops it; others may close the job at any time. `loose` is a
final phase that does not stop the next attempt.

A move is `strict` when no attempt begins in a loose phase and no attempt puts a closed
job back: the counter then stays within the limit, and every attempt begins before
there is a result. The numbering needs neither.
-/

namespace KosSim.Library

inductive Phase where
  | waiting
  | busy
  | closed
  | loose
  deriving DecidableEq

namespace Phase

def startable : Phase → Bool
  | .waiting | .loose => true
  | .busy | .closed => false

end Phase

/-- `attempt` tells of an attempt that has been made whether it still runs. -/
structure AttemptBook (ω : Type) where
  phase : Phase
  started : Int
  attempt : Int → Option Bool
  held : ω → Option Int
  final : Bool

namespace AttemptBook

variable {ω : Type} {limit : Int} {strict : Prop} {before after : AttemptBook ω}

/-- No attempt is added, none starts to run again, and nobody takes one over. -/
structure Fades (before after : AttemptBook ω) : Prop where
  started : after.started = before.started
  made : ∀ number, (after.attempt number).isSome = (before.attempt number).isSome
  running : ∀ number, after.attempt number = some true → before.attempt number = some true
  held : ∀ worker number, after.held worker = some number → before.held worker = some number

structure Begins (strict : Prop) (worker : ω) (before after : AttemptBook ω) : Prop where
  free : before.phase.startable = true
  fit : strict → before.phase = .waiting
  phase : after.phase = .busy
  started : after.started = before.started + 1
  attempt : ∀ number, after.attempt number = if number =
    before.started + 1 then some true else before.attempt number
  held : ∀ other number, after.held other = some number →
    other = worker ∧ number = before.started + 1 ∨ before.held other = some number
  final : after.final = before.final

inductive Quiet (limit : Int) (strict : Prop) (before after : AttemptBook ω) : Prop
  /-- Nothing changes but that workers and running attempts may go. -/
  | rests (fades : Fades before after) (phase : after.phase = before.phase)
    (final : after.final = before.final)
  | closes (fades : Fades before after) (phase : after.phase = .closed)
  | settles (worker : ω) (number : Int) (fades : Fades before after)
      (holds : before.held worker = some number)
      (left : after.held worker = none) (stopped : after.attempt number ≠ some true)
      (phase : after.phase = .loose ∨
        after.phase = .waiting ∧ number < limit ∧ after.final = before.final ∧
        (strict → before.phase ≠ .closed))

/-- Attempts are numbered from 1, and an attempt that runs or is held is the last one, of a job that
cannot be started. -/
structure Sound (book : AttemptBook ω) : Prop where
  nonneg : 0 ≤ book.started
  numbered : ∀ number, (book.attempt number).isSome = true ↔ 1 ≤ number ∧ number ≤ book.started
  running : ∀ number, book.attempt number = some true → number = book.started ∧ book.phase.startable = false
  holding : ∀ worker number, book.held worker = some number → number = book.started ∧
    book.phase.startable = false
  alone : ∀ worker other number another, book.held worker = some number →
    book.held other = some another → worker = other

structure Fair (limit : Int) (book : AttemptBook ω) : Prop where
  bounded : book.started ≤ limit
  room : book.phase = .waiting → book.started < limit
  fresh : book.phase = .waiting ∨ book.phase = .busy → book.final = false

theorem Sound.begins {worker : ω} (sound : Sound before)
    (begins : Begins strict worker before after) : Sound after := by
  have nonneg := sound.nonneg
  have busy : after.phase.startable = false := by rw [begins.phase]; rfl
  have idle {number : Int} : before.attempt number ≠ some true := by
    intro running
    have closed := (sound.running number running).2
    rw [begins.free] at closed
    cases closed
  have nobody {other : ω} {number : Int} : before.held other ≠ some number := by
    intro holds
    have closed := (sound.holding other number holds).2
    rw [begins.free] at closed
    cases closed
  constructor
  · rw [begins.started]
    omega
  · intro number
    rw [begins.attempt, begins.started]
    split
    · next last =>
      rw [last]
      simp only [Option.isSome_some, true_iff]
      omega
    · rw [sound.numbered]
      omega
  · intro number running
    rw [begins.attempt] at running
    split at running
    · next last => exact ⟨last.trans begins.started.symm, busy⟩
    · exact absurd running idle
  · intro other number holds
    rcases begins.held other number holds with ⟨_, last⟩ | old
    · exact ⟨last.trans begins.started.symm, busy⟩
    · exact absurd old nobody
  · intro one other number another holdsOne holdsOther
    rcases begins.held one number holdsOne with ⟨here, _⟩ | old
    · rcases begins.held other another holdsOther with ⟨there, _⟩ | old
      · exact here.trans there.symm
      · exact absurd old nobody
    · exact absurd old nobody

/-- Without new attempts the book stays sound, if what still runs or is held has not become startable. -/
theorem Sound.fades (sound : Sound before) (fades : Fades before after)
    (kept : after.phase.startable = true → before.phase.startable = true ∨
      (∀ number, after.attempt number ≠ some true) ∧ ∀ worker, after.held worker = none) : Sound after := by
  have still (closed : before.phase.startable = false)
      (found : ¬((∀ number, after.attempt number ≠ some true) ∧ ∀ worker, after.held worker = none)) :
      after.phase.startable = false := by
    cases open_ : after.phase.startable with
    | false => rfl
    | true =>
        rcases kept open_ with old | gone
        · rw [old] at closed
          cases closed
        · exact absurd gone found
  constructor
  · rw [fades.started]
    exact sound.nonneg
  · intro number
    rw [fades.made, fades.started]
    exact sound.numbered number
  · intro number running
    obtain ⟨last, closed⟩ := sound.running number (fades.running number running)
    exact ⟨last.trans fades.started.symm, still closed fun gone => gone.1 number running⟩
  · intro worker number holds
    obtain ⟨last, closed⟩ := sound.holding worker number (fades.held worker number holds)
    refine ⟨last.trans fades.started.symm, still closed fun gone => ?_⟩
    rw [gone.2 worker] at holds
    cases holds
  · intro worker other number another holds holdsOther
    exact sound.alone worker other number another (fades.held worker number holds)
      (fades.held other another holdsOther)

theorem Sound.quiet (sound : Sound before) (quiet : Quiet limit strict before after) : Sound after := by
  cases quiet with
  | rests fades phase final =>
      apply sound.fades fades
      rw [phase]
      exact Or.inl
  | closes fades phase =>
      apply sound.fades fades
      rw [phase]
      intro never
      cases never
  | settles worker number fades holds left stopped phase =>
      apply sound.fades fades
      intro _
      have last := (sound.holding worker number holds).1
      refine Or.inr ⟨?_, ?_⟩
      · intro other running
        have same := (sound.running other (fades.running other running)).1
        rw [same, ← last] at running
        exact stopped running
      · intro other
        cases held : after.held other with
        | none => rfl
        | some another =>
            have same := sound.alone worker other number another holds (fades.held other another held)
            rw [← same, left] at held
            cases held

theorem Fair.begins {worker : ω} (met : strict) (fair : Fair limit before)
    (begins : Begins strict worker before after) :
    Fair limit after := by
  have waiting := begins.fit met
  have room := fair.room waiting
  constructor
  · rw [begins.started]
    omega
  · rw [begins.phase]
    intro never
    cases never
  · intro _
    rw [begins.final]
    exact fair.fresh (Or.inl waiting)

theorem Fair.quiet (met : strict) (sound : Sound before) (fair : Fair limit before)
    (quiet : Quiet limit strict before after) : Fair limit after := by
  cases quiet with
  | rests fades phase final =>
      constructor
      · exact fades.started ▸ fair.bounded
      · rw [phase, fades.started]
        exact fair.room
      · rw [phase, final]
        exact fair.fresh
  | closes fades phase =>
      refine ⟨fades.started ▸ fair.bounded, ?_, ?_⟩
      · rw [phase]
        intro never
        cases never
      · rw [phase]
        rintro (never | never) <;> cases never
  | settles worker number fades holds left stopped phase =>
      obtain ⟨last, closed⟩ := sound.holding worker number holds
      rcases phase with loose | ⟨waiting, below, final, reopened⟩
      · refine ⟨fades.started ▸ fair.bounded, ?_, ?_⟩
        · rw [loose]
          intro never
          cases never
        · rw [loose]
          rintro (never | never) <;> cases never
      · have busy : before.phase = .busy := by
          cases shape : before.phase with
          | waiting => rw [shape] at closed; cases closed
          | loose => rw [shape] at closed; cases closed
          | busy => rfl
          | closed => exact absurd shape (reopened met)
        refine ⟨fades.started ▸ fair.bounded, ?_, ?_⟩
        · intro _
          rw [fades.started, ← last]
          exact below
        · intro _
          rw [final]
          exact fair.fresh (Or.inr busy)

/-- What a transaction does to the book: quiet moves, or the beginning of one attempt. -/
def Moves (limit : Int) (strict : Prop) (before after : AttemptBook ω) : Prop :=
  Relation.ReflTransGen (Quiet limit strict) before after ∨ ∃ worker, Begins strict worker before after

theorem Sound.moves (sound : Sound before) (moves : Moves limit strict before after) : Sound after := by
  rcases moves with quiet | ⟨worker, begins⟩
  · induction quiet with
    | refl => exact sound
    | tail _ one ih => exact ih.quiet one
  · exact sound.begins begins

theorem Fair.moves (met : strict) (sound : Sound before) (fair : Fair limit before)
    (moves : Moves limit strict before after) : Fair limit after := by
  rcases moves with quiet | ⟨worker, begins⟩
  · have both : Sound after ∧ Fair limit after := by
      induction quiet with
      | refl => exact ⟨sound, fair⟩
      | tail _ one ih => exact ⟨ih.1.quiet one, ih.2.quiet met ih.1 one⟩
    exact both.2
  · exact fair.begins met begins

theorem quiet_started (quiet : Relation.ReflTransGen (Quiet limit strict) before after) :
    after.started = before.started := by
  induction quiet with
  | refl => rfl
  | tail _ one ih =>
      refine Eq.trans ?_ ih
      cases one with
      | rests fades => exact fades.started
      | closes fades => exact fades.started
      | settles worker number fades => exact fades.started

end AttemptBook
end KosSim.Library
