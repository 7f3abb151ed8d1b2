import KosSim.Library.Runs
import Mathlib.Data.List.Basic

/-!
Requests that are served side by side over one state. The state stands behind a process of its own:
a handler reads and changes it in single calls, and between two calls of one handler any others may
come. What every call keeps holds in every run, and what is answered then follows from each handler
by itself.
-/

namespace KosSim.Library

/-- meets: a condition on the state that an act finds; outer: the acts of no handler, such as a
crash, which ends some. -/
structure System (σ κ : Type) where
  apply : σ → κ → σ
  meets : σ → κ → Prop
  outer : κ → Prop

/-- What is left of a request: its answer, or a call and what is done with the state that it finds. -/
inductive Handler (σ κ α : Type) where
  | answer (value : α)
  | call (act : Option κ) (next : σ → Handler σ κ α)

structure Entry (ι β : Type) where
  number : Nat
  request : ι
  rest : β

structure Pool (σ ι κ α : Type) where
  state : σ
  arrivals : Nat := 0
  running : List (Entry ι (Handler σ κ α)) := []
  answered : List (Entry ι α) := []
  acts : List κ := []

/-- lost: which handlers an outer act ends, by their numbers. One that lies between two requests of
a client may go on. -/
inductive Turn (ι κ : Type) where
  | arrive (request : ι)
  | turn (index : Nat)
  | outside (act : κ) (lost : Nat → Bool)

namespace System
variable {σ κ : Type} (system : System σ κ)

def applied (state : σ) : Option κ → σ
  | none => state
  | some act => system.apply state act

end System

namespace Handler
variable {σ κ α β : Type}

def bind (next : α → Handler σ κ β) : Handler σ κ α → Handler σ κ β
  | .answer value => next value
  | .call act rest => .call act fun state => (rest state).bind next

instance : Monad (Handler σ κ) where
  pure := .answer
  bind handler next := handler.bind next

/-- One call that only reads. -/
def ask (read : σ → α) : Handler σ κ α := .call none fun state => .answer (read state)

/-- One call that changes the state, and what it reads there before the change. -/
def act (change : κ) (read : σ → α) : Handler σ κ α := .call (some change) fun state => .answer (read state)

end Handler

/-! What handlers rely on. -/

/-- An invariant of the state, and how the state may go on between two calls; `ok` is what the
handlers guarantee. -/
structure Contract {σ κ : Type} (system : System σ κ) where
  keeps : σ → Prop
  grows : σ → σ → Prop
  ok : σ → κ → Prop
  refl : ∀ state, grows state state
  trans : ∀ {one other last}, grows one other → grows other last → grows one last
  step : ∀ state act, keeps state → system.meets state act → ok state act →
    keeps (system.apply state act) ∧ grows state (system.apply state act)
  outside : ∀ state act, keeps state → system.outer act → system.meets state act → ok state act

/-- A contract that asks more of the others, and allows a handler what it was allowed before. -/
structure Contract.Narrower {σ κ : Type} {system other : System σ κ} (wide : Contract system)
    (narrow : Contract other) :
    Prop where
  apply : other.apply = system.apply
  meets : ∀ state act, other.meets state act → system.meets state act
  keeps : ∀ state, narrow.keeps state → wide.keeps state
  grows : ∀ one last, narrow.grows one last → wide.grows one last
  ok : ∀ state act, wide.ok state act → narrow.ok state act

/-- The same with a fact that lasts. -/
def Contract.also {σ κ : Type} {system : System σ κ} (contract : Contract system) (fact : σ → Prop)
    (lasts : ∀ one other, contract.grows one other → fact one → fact other) : Contract system where
  keeps state := contract.keeps state ∧ fact state
  grows := contract.grows
  ok := contract.ok
  refl := contract.refl
  trans := contract.trans
  step state act kept met fine :=
    have next := contract.step state act kept.1 met fine
    ⟨⟨next.1, lasts state _ next.2 kept.2⟩, next.2⟩
  outside state act kept outer met := contract.outside state act kept.1 outer met

theorem Contract.also_narrower {σ κ : Type} {system : System σ κ} (contract : Contract system)
    (fact : σ → Prop) (lasts : ∀ one other, contract.grows one other → fact one → fact other) :
    contract.Narrower (contract.also fact lasts) where
  apply := rfl
  meets := fun _ _ met => met
  keeps := fun _ kept => kept.1
  grows := fun _ _ grown => grown
  ok := fun _ _ fine => fine

namespace Handler
variable {σ κ α β : Type} {system : System σ κ}

/-- From a state on, whatever the calls find: the acts are fine, and the answer and the state it
comes in have `post`. -/
def Sound (contract : Contract system) (post : α → σ → Prop) : Handler σ κ α → σ → Prop
  | .answer value, state => post value state
  | .call act next, state =>
      ∀ now, contract.grows state now → contract.keeps now →
        (∀ change ∈ act, contract.ok now change) ∧
          ((∀ change ∈ act, system.meets now change) →
            (next now).Sound contract post (system.applied now act))

variable {contract : Contract system} {post : α → σ → Prop}

theorem sound_grows {handler : Handler σ κ α} {one other : σ} (sound : handler.Sound contract post one)
    (grown : contract.grows one other) (stable : ∀ value, post value one → post value other) :
    handler.Sound contract post other := by
  cases handler with
  | answer value => exact stable value sound
  | call act next => exact fun now later kept => sound now (contract.trans grown later) kept

theorem applied_grows {now : σ} (kept : contract.keeps now) {act : Option κ}
    (fine : ∀ change ∈ act, contract.ok now change) (met : ∀ change ∈ act, system.meets now change) :
    contract.keeps (system.applied now act) ∧ contract.grows now (system.applied now act) := by
  cases act with
  | none => exact ⟨kept, contract.refl now⟩
  | some change => exact contract.step now change kept (met change rfl) (fine change rfl)

theorem sound_mono {wanted : α → σ → Prop} {handler : Handler σ κ α} {state : σ}
    (sound : handler.Sound contract post state)
    (weaker : ∀ value now, contract.grows state now → post value now → wanted value now) :
    handler.Sound contract wanted state := by
  induction handler generalizing state with
  | answer value => exact weaker value state (contract.refl state) sound
  | call act next ih =>
      intro now grown kept
      obtain ⟨fine, later⟩ := sound now grown kept
      refine ⟨fine, fun met => ih now (later met) fun value last more found => ?_⟩
      exact weaker value last
        (contract.trans grown (contract.trans (applied_grows kept fine met).2 more)) found

theorem sound_bind {mid : α → σ → Prop} {wanted : β → σ → Prop} {handler : Handler σ κ α}
    {next : α → Handler σ κ β} {state : σ} (first : handler.Sound contract mid state)
    (rest : ∀ value now, contract.grows state now → mid value now →
      (next value).Sound contract wanted now) : (handler >>= next).Sound contract wanted state := by
  induction handler generalizing state with
  | answer value => exact rest value state (contract.refl state) first
  | call act inner ih =>
      intro now grown kept
      obtain ⟨fine, later⟩ := first now grown kept
      refine ⟨fine, fun met => ih now (later met) fun value last more found => ?_⟩
      exact rest value last
        (contract.trans grown (contract.trans (applied_grows kept fine met).2 more)) found

theorem sound_ask {read : σ → α} {state : σ}
    (each : ∀ now, contract.grows state now → contract.keeps now → post (read now) now) :
    (ask read : Handler σ κ α).Sound contract post state :=
  fun now grown kept => ⟨fun _ none => (Option.some_ne_none _ none.symm).elim, fun _ => each now grown kept⟩

theorem sound_ask_bind {read : σ → β} {next : β → Handler σ κ α} {state : σ}
    (each : ∀ now, contract.grows state now → contract.keeps now →
      (next (read now)).Sound contract post now) : (ask read >>= next).Sound contract post state :=
  fun now grown kept => ⟨fun _ none => (Option.some_ne_none _ none.symm).elim, fun _ => each now grown kept⟩

theorem sound_act {change : κ} {read : σ → α} {state : σ}
    (each : ∀ now, contract.grows state now → contract.keeps now →
      contract.ok now change ∧ (system.meets now change → post (read now) (system.apply now change))) :
    (act change read).Sound contract post state := by
  intro now grown kept
  obtain ⟨fine, later⟩ := each now grown kept
  exact ⟨fun _ same => Option.some.inj same ▸ fine, fun met => later (met change rfl)⟩

theorem sound_act_bind {change : κ} {read : σ → β} {next : β → Handler σ κ α} {state : σ}
    (each : ∀ now, contract.grows state now → contract.keeps now → contract.ok now change ∧
      (system.meets now change → (next (read now)).Sound contract post (system.apply now change))) :
    (act change read >>= next).Sound contract post state := by
  intro now grown kept
  obtain ⟨fine, later⟩ := each now grown kept
  exact ⟨fun _ same => Option.some.inj same ▸ fine, fun met => later (met change rfl)⟩

/-- Handlers whose acts always meet the condition, whatever the state. -/
def fitting (system : System σ κ) : Contract system where
  keeps _ := True
  grows _ _ := True
  ok := system.meets
  refl _ := trivial
  trans _ _ := trivial
  step _ _ _ _ _ := ⟨trivial, trivial⟩
  outside _ _ _ _ met := met

theorem sound_narrow {other : System σ κ} {narrow : Contract other} (narrower : contract.Narrower narrow)
    {handler : Handler σ κ α} {state : σ} (sound : handler.Sound contract post state) :
    handler.Sound narrow post state := by
  induction handler generalizing state with
  | answer value => exact sound
  | call act next ih =>
      intro now grown kept
      obtain ⟨fine, later⟩ := sound now (narrower.grows _ _ grown) (narrower.keeps _ kept)
      have same : other.applied now act = system.applied now act := by
        cases act with
        | none => rfl
        | some change => exact congrFun (congrFun narrower.apply now) change
      rw [same]
      exact ⟨fun change called => narrower.ok _ _ (fine change called),
        fun met => ih now (later fun change called => narrower.meets _ _ (met change called))⟩

section Alone
variable (system)

/-- The handler with nothing between its calls: its answer, the state behind it, and its acts. -/
def alone : Handler σ κ α → σ → α × σ × List κ
  | .answer value, state => (value, state, [])
  | .call act next, state =>
      let after := (next state).alone (system.applied state act)
      (after.1, after.2.1, act.toList ++ after.2.2)

theorem alone_ask_bind (read : σ → β) (next : β → Handler σ κ α) (state : σ) :
    (ask read >>= next).alone system state = (next (read state)).alone system state := rfl

theorem alone_act_bind (change : κ) (read : σ → β) (next : β → Handler σ κ α) (state : σ) :
    ((act change read >>= next).alone system state).1 =
      ((next (read state)).alone system (system.apply state change)).1 ∧
      ((act change read >>= next).alone system state).2.1 =
        ((next (read state)).alone system (system.apply state change)).2.1 :=
  ⟨rfl, rfl⟩

def Meets : Handler σ κ α → σ → Prop
  | .answer _, _ => True
  | .call act next, state =>
      (∀ change ∈ act, system.meets state change) ∧ (next state).Meets (system.applied state act)

instance decidableMeets [∀ state act, Decidable (system.meets state act)] :
    ∀ (handler : Handler σ κ α) (state : σ), Decidable (handler.Meets system state)
  | .answer _, _ => isTrue trivial
  | .call none next, state =>
      have := decidableMeets (next state) state
      decidable_of_iff ((next state).Meets system state)
        ⟨fun rest => ⟨fun _ none => (Option.not_mem_none _ none).elim, rest⟩, fun both => both.2⟩
  | .call (some act) next, state =>
      have := decidableMeets (next state) (system.apply state act)
      decidable_of_iff (system.meets state act ∧ (next state).Meets system (system.apply state act))
        ⟨fun both => ⟨fun _ same => Option.some.inj same ▸ both.1, both.2⟩,
          fun all => ⟨all.1 act rfl, all.2⟩⟩

theorem meets_of_fitting {handler : Handler σ κ α} {state : σ}
    (sound : handler.Sound (fitting system) post state) :
    handler.Meets system state := by
  induction handler generalizing state with
  | answer value => exact trivial
  | call act next ih =>
      obtain ⟨fine, later⟩ := sound state trivial trivial
      exact ⟨fine, ih state (later fine)⟩

end Alone
end Handler

/-! Pools. -/

section Pools
variable {σ ι κ α : Type} (serve : ι → Handler σ κ α) (system : System σ κ)

def poolStep (pool : Pool σ ι κ α) : Turn ι κ → Option (Pool σ ι κ α)
  | .arrive request =>
      some { pool with
        arrivals := pool.arrivals + 1
        running := pool.running ++ [⟨pool.arrivals, request, serve request⟩] }
  | .turn index =>
      match pool.running[index]? with
      | none => none
      | some ⟨number, request, .answer value⟩ =>
          some { pool with
            running := pool.running.eraseIdx index
            answered := pool.answered ++ [⟨number, request, value⟩] }
      | some ⟨number, request, .call act next⟩ =>
          some { pool with
            state := system.applied pool.state act
            running := pool.running.set index ⟨number, request, next pool.state⟩
            acts := pool.acts ++ act.toList }
  | .outside act lost =>
      some { pool with
        state := system.apply pool.state act
        running := pool.running.filter fun entry => !lost entry.number
        acts := pool.acts ++ [act] }

/-- accepted: of the answers so far and a new request. -/
def permitted (accepted : List (Entry ι α) → ι → Prop) (pool : Pool σ ι κ α) : Turn ι κ → Prop
  | .arrive request => accepted pool.answered request
  | .turn index =>
      ∀ entry ∈ pool.running[index]?, ∀ act next, entry.rest = .call (some act) next →
        system.meets pool.state act
  | .outside act _ => system.outer act ∧ system.meets pool.state act

variable (accepted : List (Entry ι α) → ι → Prop)

abbrev Served : Pool σ ι κ α → Pool σ ι κ α → Prop :=
  Steps (poolStep serve system) (permitted system accepted)

/-- What is known of a pool: of its state, and of the answers to the requests from one number on. -/
structure Pool.Kept {system : System σ κ} (contract : Contract system) (replies : ι → α → σ → Prop)
    (since : Nat) (pool : Pool σ ι κ α) : Prop where
  state : contract.keeps pool.state
  running : ∀ entry ∈ pool.running,
    entry.rest.Sound contract (fun value now => since ≤ entry.number →
      replies entry.request value now) pool.state
  answered : ∀ entry ∈ pool.answered, since ≤ entry.number → replies entry.request entry.rest pool.state

/-- Each request is served by a handler that honours the contract, and what is known of an answer lasts. -/
structure Honoured {system : System σ κ} (contract : Contract system) (replies : ι → α → σ → Prop)
    (since : Nat) : Prop where
  lasts : ∀ request value one other, contract.grows one other → replies request value one →
  replies request value other
  serves : ∀ answered request state, (∀ entry ∈ answered, since ≤ entry.number →
    replies entry.request entry.rest state) →
    accepted answered request → contract.keeps state →
    (serve request).Sound contract (fun value now => replies request value now) state

variable {serve system accepted}

section Rule
variable {contract : Contract system} {replies : ι → α → σ → Prop} {since : Nat}

theorem Pool.Kept.start {state : σ} (kept : contract.keeps state) (acts : List κ) :
    ({ state, acts } : Pool σ ι κ α).Kept contract replies since where
  state := kept
  running := fun _ member => (List.not_mem_nil member).elim
  answered := fun _ member => (List.not_mem_nil member).elim

/-- One step does no act or one. -/
theorem step_act {before after : Pool σ ι κ α} (held : before.Kept contract replies since)
    (event : Turn ι κ) (met : permitted system accepted before event)
    (taken : poolStep serve system before event = some after) :
    (after.state = before.state ∧ after.acts = before.acts) ∨
      ∃ act, system.meets before.state act ∧ contract.ok before.state act ∧
      after.state = system.apply before.state act ∧ after.acts = before.acts ++ [act] := by
  cases event with
  | arrive request =>
      cases taken
      exact .inl ⟨rfl, rfl⟩
  | turn index =>
      cases found : before.running[index]? with
      | none => simp only [poolStep, found, reduceCtorEq] at taken
      | some entry =>
          have sound := held.running entry (List.mem_of_getElem? found)
          obtain ⟨number, request, rest⟩ := entry
          cases rest with
          | answer value =>
              simp only [poolStep, found, Option.some.injEq] at taken
              subst taken
              exact .inl ⟨rfl, rfl⟩
          | call act next =>
              simp only [poolStep, found, Option.some.injEq] at taken
              subst taken
              cases act with
              | none => exact .inl ⟨rfl, List.append_nil _⟩
              | some act =>
                  exact .inr ⟨act, met _ found act next rfl,
                    (sound before.state (contract.refl _) held.state).1 act rfl, rfl, rfl⟩
  | outside act lost =>
      cases taken
      exact .inr ⟨act, met.2, contract.outside before.state act held.state met.1 met.2, rfl, rfl⟩

theorem step_state {before after : Pool σ ι κ α} (held : before.Kept contract replies since)
    (event : Turn ι κ) (met : permitted system accepted before event)
    (taken : poolStep serve system before event = some after) :
    contract.keeps after.state ∧ contract.grows before.state after.state := by
  rcases step_act held event met taken with ⟨same, -⟩ | ⟨act, meets, fine, state, -⟩
  · rw [same]
    exact ⟨held.state, contract.refl _⟩
  · rw [state]
    exact contract.step before.state act held.state meets fine

theorem step_kept (honoured : Honoured serve accepted contract replies since)
    {before after : Pool σ ι κ α} (held : before.Kept contract replies since) (event : Turn ι κ)
    (met : permitted system accepted before event)
    (taken : poolStep serve system before event = some after) :
    after.Kept contract replies since := by
  obtain ⟨state, grown⟩ := step_state held event met taken
  have others : ∀ entry ∈ before.running,
      entry.rest.Sound contract (fun value now => since ≤ entry.number →
        replies entry.request value now) after.state :=
    fun entry member => Handler.sound_grows (held.running entry member) grown fun value wanted later =>
      honoured.lasts entry.request value _ _ grown (wanted later)
  have answers : ∀ entry ∈ before.answered, since ≤ entry.number →
      replies entry.request entry.rest after.state :=
    fun entry member later => honoured.lasts _ _ _ _ grown (held.answered entry member later)
  cases event with
  | arrive request =>
      cases taken
      refine ⟨state, ?_, answers⟩
      intro entry member
      rcases List.mem_append.mp member with there | new
      · exact others entry there
      · rw [List.mem_singleton.mp new]
        exact Handler.sound_mono (honoured.serves before.answered request before.state held.answered
          met held.state) fun _ _ _ wanted _ => wanted
  | turn index =>
      cases found : before.running[index]? with
      | none => simp only [poolStep, found, reduceCtorEq] at taken
      | some entry =>
          have sound := held.running entry (List.mem_of_getElem? found)
          obtain ⟨number, request, rest⟩ := entry
          cases rest with
          | answer value =>
              simp only [poolStep, found, Option.some.injEq] at taken
              subst taken
              refine ⟨state, fun other there => others other (List.mem_of_mem_eraseIdx there), ?_⟩
              intro other there new
              rcases List.mem_append.mp there with old | last
              · exact answers other old new
              · cases List.mem_singleton.mp last
                exact sound new
          | call act next =>
              simp only [poolStep, found, Option.some.injEq] at taken
              subst taken
              refine ⟨state, ?_, answers⟩
              intro other there
              rcases List.mem_or_eq_of_mem_set there with old | rfl
              · exact others other old
              · refine (sound before.state (contract.refl _) held.state).2 fun change same => ?_
                exact met _ found change next (by rw [← same])
  | outside act lost =>
      cases taken
      exact ⟨state, fun entry member => others entry (List.mem_of_mem_filter member), answers⟩

/-- The rule for every order of calls. -/
theorem served_kept (honoured : Honoured serve accepted contract replies since)
    {first last : Pool σ ι κ α} (held : first.Kept contract replies since)
    (run : Served serve system accepted first last) : last.Kept contract replies since :=
  steps_invariant (Pool.Kept contract replies since)
    (fun _ event _ before met taken => step_kept honoured before event met taken) held run

/-- An account of the acts so far that every act keeps. -/
theorem served_tracked (honoured : Honoured serve accepted contract replies since)
    (track : σ → List κ → Prop)
    (kept : ∀ state acts act, contract.keeps state → system.meets state act → contract.ok state act →
      track state acts → track (system.apply state act) (acts ++ [act]))
    {first last : Pool σ ι κ α} (held : first.Kept contract replies since)
    (start : track first.state first.acts) (run : Served serve system accepted first last) :
    track last.state last.acts := by
  refine (steps_invariant (fun pool => pool.Kept contract replies since ∧ track pool.state pool.acts)
    ?_ ⟨held, start⟩ run).2
  rintro before event after ⟨holds, tracked⟩ met taken
  refine ⟨step_kept honoured holds event met taken, ?_⟩
  rcases step_act holds event met taken with ⟨same, acts⟩ | ⟨act, meets, fine, state, acts⟩
  · rw [same, acts]
    exact tracked
  · rw [state, acts]
    exact kept before.state before.acts act holds.state meets fine tracked

end Rule

/-- Numbers are given once. -/
structure Pool.Numbered (pool : Pool σ ι κ α) : Prop where
  running : ∀ entry ∈ pool.running, entry.number < pool.arrivals
  answered : ∀ entry ∈ pool.answered, entry.number < pool.arrivals

theorem served_numbered {first last : Pool σ ι κ α} (start : first.Numbered)
    (run : Served serve system accepted first last) : last.Numbered := by
  refine steps_invariant Pool.Numbered ?_ start run
  intro before event after numbered _ taken
  cases event with
  | arrive request =>
      cases taken
      refine ⟨fun entry member => ?_,
        fun entry member => Nat.lt_succ_of_lt (numbered.answered entry member)⟩
      rcases List.mem_append.mp member with there | new
      · exact Nat.lt_succ_of_lt (numbered.running entry there)
      · rw [List.mem_singleton.mp new]
        exact Nat.lt_succ_self _
  | turn index =>
      cases found : before.running[index]? with
      | none => simp only [poolStep, found, reduceCtorEq] at taken
      | some entry =>
          have here := numbered.running entry (List.mem_of_getElem? found)
          obtain ⟨number, request, rest⟩ := entry
          cases rest with
          | answer value =>
              simp only [poolStep, found, Option.some.injEq] at taken
              subst taken
              refine ⟨fun other there => numbered.running other (List.mem_of_mem_eraseIdx there),
                fun other there => ?_⟩
              rcases List.mem_append.mp there with old | new
              · exact numbered.answered other old
              · rw [List.mem_singleton.mp new]
                exact here
          | call act next =>
              simp only [poolStep, found, Option.some.injEq] at taken
              subst taken
              refine ⟨fun other there => ?_, numbered.answered⟩
              rcases List.mem_or_eq_of_mem_set there with old | rfl
              · exact numbered.running other old
              · exact here
  | outside act lost =>
      cases taken
      exact ⟨fun entry member => numbered.running entry (List.mem_of_mem_filter member), numbered.answered⟩

/-- From any moment on, for the requests that come later: the handlers that are running answer what
they like. -/
theorem Pool.Kept.resume {other : System σ κ} {contract : Contract system} {narrow : Contract other}
    {old : ι → α → σ → Prop} {pool : Pool σ ι κ α} {since : Nat} (held : pool.Kept contract old since)
    (numbered : pool.Numbered) (narrower : contract.Narrower narrow) (now : narrow.keeps pool.state)
    (replies : ι → α → σ → Prop) : pool.Kept narrow replies pool.arrivals where
  state := now
  running := fun entry member =>
    Handler.sound_mono (Handler.sound_narrow narrower (held.running entry member)) fun _ _ _ _ later =>
      absurd (numbered.running entry member) (Nat.not_lt.mpr later)
  answered := fun entry member later => absurd (numbered.answered entry member) (Nat.not_lt.mpr later)

/-- A request that is served with nothing between its calls. -/
theorem served_alone (pool : Pool σ ι κ α) (request : ι) (admitted : accepted pool.answered request)
    (fits : (serve request).Meets system pool.state) :
    Served serve system accepted pool
      { pool with
        state := ((serve request).alone system pool.state).2.1
        arrivals := pool.arrivals + 1
        answered := pool.answered ++ [⟨pool.arrivals, request, ((serve request).alone system pool.state).1⟩]
        acts := pool.acts ++ ((serve request).alone system pool.state).2.2 } := by
  have turns (rest : Handler σ κ α) (state : σ) (acts : List κ) (met : rest.Meets system state) :
      Served serve system accepted
        { pool with
          state, acts
          arrivals := pool.arrivals + 1
          running := pool.running ++ [⟨pool.arrivals, request, rest⟩] }
        { pool with
          state := (rest.alone system state).2.1
          arrivals := pool.arrivals + 1
          answered := pool.answered ++ [⟨pool.arrivals, request, (rest.alone system state).1⟩]
          acts := acts ++ (rest.alone system state).2.2 } := by
    have here (entry : Entry ι (Handler σ κ α)) :
        (pool.running ++ [entry])[pool.running.length]? = some entry := by
      rw [List.getElem?_append_right (Nat.le_refl _), Nat.sub_self]
      rfl
    induction rest generalizing state acts with
    | answer value =>
        refine Steps.snoc (Steps.refl _) (.turn pool.running.length) ?_ ?_
        · intro entry found act next call
          rw [here, Option.mem_some_iff] at found
          rw [← found] at call
          cases call
        · simp only [poolStep, here, Handler.alone, List.append_nil]
          rw [List.eraseIdx_append_of_length_le (Nat.le_refl _), Nat.sub_self]
          simp
    | call act next ih =>
        refine Steps.then (Steps.snoc (Steps.refl _) (.turn pool.running.length) ?_ ?_)
          ((ih state _ (acts ++ act.toList) met.2).then ?_)
        · intro entry found change later call
          rw [here, Option.mem_some_iff] at found
          rw [← found] at call
          cases call
          exact met.1 change rfl
        · simp only [poolStep, here]
          rw [List.set_append_right _ _ (Nat.le_refl _), Nat.sub_self]
          rfl
        · simp only [Handler.alone, List.append_assoc]
          exact Steps.refl _
  refine Steps.then (Steps.snoc (Steps.refl _) (.arrive request) admitted rfl) ?_
  exact turns (serve request) pool.state pool.acts fits

end Pools
end KosSim.Library
