import KosSim.PolicyFlags
import Mathlib.Data.List.DropRight

/-!
The cache of decisions: under each key stands the first decision that was made for it since the
cache was emptied, and the agent answers with that one.
-/

namespace KosSim.PolicyForge
open Library Library.Handler
open PolicyDsl (Text)

def Act.clears : Act → Bool
  | .putFlag _ _ _ | .init => true
  | .putNoise _ _ | .allowed _ _ => false

/-- The acts behind the last that empties the cache. -/
def sinceClear (acts : List Act) : List Act := acts.rtakeWhile fun act => !act.clears

section Cache
variable (env : Env)

/-- What an act decides under a key. -/
def Act.decides (objects : Dict Text Obj) (key : Text) : Act → Option Bool
  | .allowed session id =>
      (objects.get? id).bind fun obj => if cacheKeyOf env session obj =
        key then some (grants session obj) else none
  | _ => none

def firstDecision (objects : Dict Text Obj) (key : Text) (acts : List Act) : Option Bool :=
  (sinceClear acts).findSome? (Act.decides env objects key)

structure Decided (state : State) (acts : List Act) : Prop where
  known : ∀ act ∈ sinceClear acts, Known state act
  cache : ∀ key, state.mem.cache.get? key = firstDecision env state.mem.objects key acts

variable {env}

theorem since_clear_snoc (acts : List Act) (act : Act) :
    sinceClear (acts ++ [act]) = if act.clears then [] else sinceClear acts ++ [act] := by
  rw [sinceClear, List.rtakeWhile_concat]
  cases act.clears <;> rfl

theorem decides_grows {state : State} {objects : Dict Text Obj}
    (grown : Grown state.mem.objects objects) {act : Act} (known : Known state act) (key : Text) :
    act.decides env objects key = act.decides env state.mem.objects key := by
  cases act with
  | allowed session id =>
      have there := known session id rfl
      rw [Dict.contains] at there
      obtain ⟨obj, found⟩ := Option.isSome_iff_exists.mp there
      rw [Act.decides, Act.decides, grown id obj found, found]
  | putFlag tick payload flag => rfl
  | putNoise tick payload => rfl
  | init => rfl

theorem first_decision_grows {state : State} {objects : Dict Text Obj}
    (grown : Grown state.mem.objects objects) {acts : List Act}
    (known : ∀ act ∈ sinceClear acts, Known state act) (key : Text) :
    firstDecision env objects key acts = firstDecision env state.mem.objects key acts := by
  unfold firstDecision
  generalize sinceClear acts = asked at known
  induction asked with
  | nil => rfl
  | cons act rest ih =>
      obtain ⟨here, later⟩ := List.forall_mem_cons.mp known
      rw [List.findSome?_cons, List.findSome?_cons, decides_grows grown here key, ih later]

theorem known_grows {state : State} {act other : Act} (known : Known state act)
    (grown : Grown state.mem.objects (apply env state other).mem.objects) :
    Known (apply env state other) act := by
  intro session id same
  have there := known session id same
  rw [Dict.contains] at there ⊢
  obtain ⟨obj, found⟩ := Option.isSome_iff_exists.mp there
  rw [grown id obj found]
  rfl

theorem boot_cache (disk : Option Stored) (key : Text) : (init env disk).mem.cache.get? key = none := by
  have cleared (mem : Stored) :
      ((bootFlags env).foldl (fun mem flag => putFlagState env mem 0 flag.1 flag.2) mem).cache =
      Dict.empty := rfl
  exact (congrArg (Dict.get? · key) (cleared _)).trans rfl

/-- An act empties the cache, or leaves what is there and decides where nothing is. -/
theorem apply_cache {state : State} {act : Act} (known : Known state act) (key : Text) :
    (apply env state act).mem.cache.get? key =
      if act.clears then none else (state.mem.cache.get? key).or
      (act.decides env state.mem.objects key) := by
  cases act with
  | putFlag tick payload flag => rfl
  | putNoise tick payload => exact (Option.or_none).symm
  | init => exact boot_cache _ key
  | allowed session id =>
      have there := known session id rfl
      rw [Dict.contains] at there
      obtain ⟨obj, found⟩ := Option.isSome_iff_exists.mp there
      show (allowedState env state session id).mem.cache.get? key = (state.mem.cache.get? key).or _
      rw [Act.decides, found, Option.bind_some]
      unfold allowedState
      rw [found]
      dsimp only
      cases cached : state.mem.cache.get? (cacheKeyOf env session obj) with
      | some made =>
          dsimp only
          by_cases same : cacheKeyOf env session obj = key
          · rw [← same, cached]
            rfl
          · rw [if_neg same, Option.or_none]
      | none =>
          dsimp only
          rw [Dict.get_set]
          by_cases same : cacheKeyOf env session obj = key
          · rw [if_pos same, if_pos same, ← same, cached]
            rfl
          · rw [if_neg same, if_neg same, Option.or_none]

theorem apply_decided {state : State} {acts : List Act} (sane : Sane env state) {act : Act}
    (apart : Apart env state act) (known : Known state act) (decided : Decided env state acts) :
    Decided env (apply env state act) (acts ++ [act]) := by
  have grown := (apply_sane sane apart known).2.1
  have before (one : Act) (member : one ∈ sinceClear (acts ++ [act])) : Known state one := by
    rw [since_clear_snoc] at member
    cases clears : act.clears with
    | true =>
        rw [clears, if_pos rfl] at member
        exact (List.not_mem_nil member).elim
    | false =>
        rw [clears, if_neg Bool.false_ne_true] at member
        rcases List.mem_append.mp member with old | new
        · exact decided.known one old
        · exact List.mem_singleton.mp new ▸ known
  refine ⟨fun one member => known_grows (before one member) grown, fun key => ?_⟩
  rw [apply_cache known, first_decision_grows grown before, firstDecision, since_clear_snoc]
  cases clears : act.clears with
  | true => rfl
  | false =>
      rw [if_neg Bool.false_ne_true, if_neg Bool.false_ne_true, List.findSome?_append,
        decided.cache key, firstDecision]
      exact congrArg _ (by rw [List.findSome?_singleton])

theorem started_decided : Decided env (init env none) [.init] :=
  ⟨fun _ member => (List.not_mem_nil member).elim, fun key => boot_cache none key⟩

end Cache

section Runs
variable {env : Env} {ι α : Type} {serving : ι → Handler State Act α}
    {accepted : List (Entry ι α) → ι → Prop}

theorem served_decided (apart : BootApart env)
    (served : ∀ request state, (serving request).Sound (tended env fun _ _ => True) (fun _ _ => True) state)
    {pool : Pool State ι Act α} (run : Served serving (agent env) accepted (started env) pool) :
    Decided env pool.state pool.acts := by
  have honoured : Honoured serving accepted (tended env fun _ _ => True) (fun _ _ _ => True) 0 :=
    ⟨fun _ _ _ _ _ _ => trivial, fun _ request state _ _ _ => served request state⟩
  exact served_tracked honoured (Decided env)
    (fun state acts act sane met known decided => apply_decided sane met.1 known decided)
    (Pool.Kept.start (started_sane apart).1 _) started_decided run

/-- Whether a session may read an object: as it was first decided since the cache was emptied, for
any session and object with the same key. -/
theorem cache_decides (apart : BootApart env)
    (served : ∀ request state, (serving request).Sound (tended env fun _ _ => True) (fun _ _ => True) state)
    {pool : Pool State ι Act α} (run : Served serving (agent env) accepted (started env) pool)
    (session : Session) {id : Text} {obj : Obj} (stored : pool.state.mem.objects.get? id = some obj) :
    allowed? env pool.state.mem session id =
      some ((firstDecision env pool.state.mem.objects (cacheKeyOf env session obj) pool.acts).getD
        (grants session obj)) := by
  rw [allowed?, stored, Option.map_some, (served_decided apart served run).cache]

end Runs
end KosSim.PolicyForge
