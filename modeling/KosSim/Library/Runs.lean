import Mathlib.Logic.Relation

/-!
Runs of a labelled transition system given by an executable partial step.
`allowed` is a condition on the state before a step and its label; a run under a
condition takes only steps that meet it. `exec` evaluates a concrete run.
-/

namespace KosSim.Library

section Runs
variable {σ ε : Type} (step : σ → ε → Option σ) (allowed : σ → ε → Prop)

def Next (before after : σ) : Prop := ∃ event, allowed before event ∧ step before event = some after

def Steps : σ → σ → Prop := Relation.ReflTransGen (Next step allowed)

def exec [∀ state event, Decidable (allowed state event)] : σ → List ε → Option σ
  | state, [] => some state
  | state, event :: rest =>
      if allowed state event then (step state event).bind fun next => exec next rest else none

/-- A property of every state that a run passes through. -/
def Throughout (holds : σ → Prop) : σ → List ε → Prop
  | state, [] => holds state
  | state, event :: rest => holds state ∧ ∀ next, step state event = some next → Throughout holds next rest

/-- A condition on every event, in the state that it meets. -/
def EachStep (meets : σ → ε → Prop) : σ → List ε → Prop
  | _, [] => True
  | state, event :: rest =>
      meets state event ∧ ∀ next, step state event = some next → EachStep meets next rest

variable {step allowed}

theorem after_step {state next : σ} {event : ε} (taken : step state event = some next) (holds : σ → Prop) :
    (∀ other, step state event = some other → holds other) ↔ holds next := by
  rw [taken]
  exact ⟨fun all => all next rfl, fun held other same => Option.some.inj same ▸ held⟩

instance decidableEachStep [∀ state event, Decidable (allowed state event)] :
    ∀ state events, Decidable (EachStep step allowed state events)
  | _, [] => isTrue trivial
  | state, event :: rest =>
      match taken : step state event with
      | none =>
          decidable_of_iff (allowed state event)
            ⟨fun meets => ⟨meets, fun _ same => nomatch taken.symm.trans same⟩, fun each => each.1⟩
      | some next =>
          have := decidableEachStep next rest
          decidable_of_iff (allowed state event ∧ EachStep step allowed next rest)
            ⟨fun both => ⟨both.1, (after_step taken (EachStep step allowed · rest)).mpr both.2⟩,
              fun each => ⟨each.1, each.2 next taken⟩⟩

theorem Steps.refl (state : σ) : Steps step allowed state state := Relation.ReflTransGen.refl

theorem Steps.then {first middle last : σ} (run : Steps step allowed first middle)
    (rest : Steps step allowed middle last) : Steps step allowed first last :=
  Relation.ReflTransGen.trans run rest

theorem Steps.snoc {first before after : σ} (run : Steps step allowed first before) (event : ε)
    (met : allowed before event) (taken : step before event = some after) :
    Steps step allowed first after :=
  Relation.ReflTransGen.tail run ⟨event, met, taken⟩

theorem exec_steps [∀ state event, Decidable (allowed state event)] (events : List ε)
    (first last : σ) (ran : exec step allowed first events = some last) :
    Steps step allowed first last := by
  induction events generalizing first with
  | nil =>
      rw [exec, Option.some.injEq] at ran
      rw [ran]
      exact Steps.refl last
  | cons event rest ih =>
      simp only [exec] at ran
      split at ran
      · next met =>
        obtain ⟨middle, taken, tail⟩ := Option.bind_eq_some_iff.mp ran
        exact Relation.ReflTransGen.head ⟨event, met, taken⟩ (ih middle tail)
      · cases ran

/-- The one induction on runs that every invariant of the development goes through. -/
theorem steps_invariant (invariant : σ → Prop)
    (kept : ∀ before event after, invariant before → allowed before event →
      step before event = some after → invariant after)
    {first last : σ} (start : invariant first) (run : Steps step allowed first last) :
    invariant last := by
  induction run with
  | refl => exact start
  | tail _ taken ih =>
      obtain ⟨event, met, stepped⟩ := taken
      exact kept _ event _ ih met stepped

/-- A run with an account of its events: `track` folds them, and the invariant relates the two. -/
theorem exec_tracked [∀ state event, Decidable (allowed state event)] {ρ : Type} (track : ρ → ε → ρ)
    (invariant : σ → ρ → Prop)
    (kept : ∀ before note event after, invariant before note → allowed before event →
      step before event = some after → invariant after (track note event))
    {events : List ε} {first last : σ} {note : ρ} (start : invariant first note)
    (ran : exec step allowed first events = some last) : invariant last (events.foldl track note) := by
  induction events generalizing first note with
  | nil =>
      rw [exec, Option.some.injEq] at ran
      rw [← ran]
      exact start
  | cons event rest ih =>
      rw [exec] at ran
      by_cases met : allowed first event
      · rw [if_pos met] at ran
        obtain ⟨middle, taken, tail⟩ := Option.bind_eq_some_iff.mp ran
        exact ih (kept first note event middle start met taken) tail
      · rw [if_neg met] at ran
        cases ran

end Runs
end KosSim.Library
