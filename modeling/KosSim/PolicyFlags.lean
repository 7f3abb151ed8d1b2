import KosSim.PolicyRoutes

/-!
The flags of PolicyForge: the flag that the service finds for a tick and a variant is the last one
written for them.
-/

namespace KosSim.PolicyForge
open Library Library.Base64 Library.Handler
open PolicyDsl (Text CaseMap Rule)

/-! Flags. -/

section Flags
variable (env : Env)

abbrev FlagKey := Int × Int

def Act.flags : Act → List (FlagKey × Text)
  | .putFlag tick payload flag => [((tick, payload), flag)]
  | .putNoise _ _ | .allowed _ _ => []
  | .init => (bootFlags env).map fun flag => ((0, flag.1), flag.2)

def written (key : FlagKey) (last : Option Text) (writes : List (FlagKey × Text)) : Option Text :=
  writes.foldl (fun last write => if write.1 = key then some write.2 else last) last

/-- The flag that was written last for a tick and a variant. -/
def lastFlag (acts : List Act) (key : FlagKey) : Option Text :=
  written key none (acts.flatMap (Act.flags env))

/-- The flag is in an object of its class. -/
def Backed (mem : Stored) (key : FlagKey) (flag : Text) : Prop :=
  ∃ id obj, mem.objects.get? id = some obj ∧ obj.data = flag ∧ obj.className = variantClass key.2

/-- The table of flags beside the acts so far. -/
structure Recorded (state : State) (acts : List Act) : Prop where
  flags : ∀ key, state.mem.flags.get? key = lastFlag env acts key
  backed : ∀ key flag, state.mem.flags.get? key = some flag → Backed state.mem key flag

variable {env}

theorem last_flag_snoc (acts : List Act) (act : Act) (key : FlagKey) :
    lastFlag env (acts ++ [act]) key = written key (lastFlag env acts key) (act.flags env) := by
  rw [lastFlag, List.flatMap_append, written, List.foldl_append, List.flatMap_singleton]
  rfl

theorem put_flags_written (mem : Stored) (flags : List (Int × Text)) (key : FlagKey) :
    (flags.foldl (fun mem flag => putFlagState env mem 0 flag.1 flag.2) mem).flags.get? key =
      written key (mem.flags.get? key) (flags.map fun flag => ((0, flag.1), flag.2)) := by
  induction flags generalizing mem with
  | nil => rfl
  | cons first rest ih =>
      have here : (putFlagState env mem 0 first.1 first.2).flags.get? key =
          if (0, first.1) = key then some first.2 else mem.flags.get? key := Dict.get_set _ _ _ _
      rw [List.foldl_cons, ih, here]
      rfl

/-- What is written last under a key is one of the writes, or was there before. -/
theorem written_cases {key : FlagKey} {before : Option Text} {writes : List (FlagKey × Text)} {flag : Text}
    (last : written key before writes = some flag) : (key, flag) ∈ writes ∨ before = some flag := by
  induction writes generalizing before with
  | nil => exact .inr last
  | cons write rest ih =>
      rcases ih last with later | here
      · exact .inl (List.mem_cons_of_mem _ later)
      · have either : (if write.1 = key then some write.2 else before) = some flag := here
        by_cases same : write.1 = key
        · rw [if_pos same, Option.some.injEq] at either
          exact .inl (List.mem_cons.mpr (.inl (Prod.ext same.symm either.symm)))
        · rw [if_neg same] at either
          exact .inr either

theorem backed_grows {one other : Stored} (grown : Grown one.objects other.objects) {key : FlagKey}
    {flag : Text} (backed : Backed one key flag) : Backed other key flag := by
  obtain ⟨id, obj, found, rest⟩ := backed
  exact ⟨id, obj, grown id obj found, rest⟩

theorem flag_backed {mem : Stored} {tick payload : Int} {flag : Text}
    (stored : mem.objects.get? (flagObject env tick payload flag).id = some
      (flagObject env tick payload flag)) :
    Backed mem (tick, payload) flag := ⟨_, _, stored, rfl, rfl⟩

/-- The file has the flags too. -/
theorem boot_flags {state : State} (sane : Sane env state) (key : FlagKey) :
    (init env state.disk).mem.flags.get? key = written key (state.mem.flags.get? key)
      (Act.flags env .init) := by
  obtain ⟨-, disk, file, flags, -, -⟩ := sane
  rw [init, file, Option.getD_some]
  exact (put_flags_written _ _ key).trans (by rw [← flags]; rfl)

theorem apply_flags {state : State} (sane : Sane env state) {act : Act} (known : Known state act)
    (key : FlagKey) :
    (apply env state act).mem.flags.get? key = written key (state.mem.flags.get? key) (act.flags env) := by
  cases act with
  | putFlag tick payload flag => exact Dict.get_set _ _ _ _
  | putNoise tick payload => rfl
  | allowed session id =>
      have there := known session id rfl
      rw [Dict.contains] at there
      obtain ⟨obj, found⟩ := Option.isSome_iff_exists.mp there
      show (allowedState env state session id).mem.flags.get? key = state.mem.flags.get? key
      unfold allowedState
      rw [found]
      dsimp only
      cases state.mem.cache.get? (cacheKeyOf env session obj) <;> rfl
  | init => exact boot_flags sane key

/-- Every flag that an act writes is in an object that it writes. -/
theorem act_backed {act : Act} {mem : Stored}
    (stored : ∀ obj ∈ act.objects env, mem.objects.get? obj.id = some obj) :
    ∀ write ∈ act.flags env, Backed mem write.1 write.2 := by
  intro write member
  cases act with
  | putFlag tick payload flag =>
      rw [List.mem_singleton.mp member]
      exact flag_backed (stored _ (List.mem_singleton.mpr rfl))
  | putNoise tick payload => exact (List.not_mem_nil member).elim
  | allowed session id => exact (List.not_mem_nil member).elim
  | init =>
      obtain ⟨flag, listed, rfl⟩ := List.mem_map.mp member
      exact flag_backed (stored _ (List.mem_map.mpr ⟨flag, listed, rfl⟩))

theorem apply_recorded {state : State} {acts : List Act} (sane : Sane env state) {act : Act}
    (apart : Apart env state act) (known : Known state act) (recorded : Recorded env state acts) :
    Recorded env (apply env state act) (acts ++ [act]) := by
  obtain ⟨-, grown, stored⟩ := apply_sane sane apart known
  refine ⟨fun key => ?_, fun key flag found => ?_⟩
  · rw [apply_flags sane known, recorded.flags, last_flag_snoc]
  · rw [apply_flags sane known] at found
    rcases written_cases found with new | old
    · exact act_backed stored _ new
    · exact backed_grows grown (recorded.backed key flag old)

theorem started_recorded (apart : BootApart env) : Recorded env (init env none) [.init] := by
  have writes (key : FlagKey) : (init env none).mem.flags.get? key = lastFlag env [.init] key :=
    put_flags_written _ _ key
  refine ⟨writes, fun key flag found => ?_⟩
  rw [writes] at found
  rcases written_cases found with new | none
  · rw [List.flatMap_singleton] at new
    exact act_backed (started_sane apart).2 _ new
  · cases none

theorem get_flag_recorded {state : State} {acts : List Act} (recorded : Recorded env state acts)
    (tick payload : Int) (expected : Text) :
    getFlag state.mem tick payload expected = true ↔ lastFlag env acts (tick, payload) = some expected := by
  rw [getFlag, Bool.and_eq_true, decide_eq_true_iff, recorded.flags]
  constructor
  · exact fun both => both.1
  · intro last
    refine ⟨last, List.any_eq_true.mpr ?_⟩
    obtain ⟨id, obj, found, data, className⟩ := recorded.backed _ _ ((recorded.flags _).trans last)
    exact ⟨(id, obj), (Dict.mem_entries_iff _ _ _).mpr found, decide_eq_true ⟨data, className⟩⟩

end Flags

/-! Runs of any requests. -/

section Runs
variable {env : Env} {ι α : Type} {serving : ι → Handler State Act α}
    {accepted : List (Entry ι α) → ι → Prop}

/-- The flag that the service answers the checker for is the one that was written last for the tick
and the variant: by a request or by a start. -/
theorem flag_found_iff (apart : BootApart env)
    (served : ∀ request state, (serving request).Sound (tended env fun _ _ => True) (fun _ _ => True) state)
    {pool : Pool State ι Act α} (run : Served serving (agent env) accepted (started env) pool)
    (tick payload : Int) (expected : Text) :
    getFlag pool.state.mem tick payload expected = true ↔
      lastFlag env pool.acts (tick, payload) = some expected := by
  have honoured : Honoured serving accepted (tended env fun _ _ => True) (fun _ _ _ => True) 0 :=
    ⟨fun _ _ _ _ _ _ => trivial, fun _ request state _ _ _ => served request state⟩
  have recorded := served_tracked honoured (Recorded env)
    (fun state acts act sane met known recorded => apply_recorded sane met.1 known recorded)
    (Pool.Kept.start (started_sane apart).1 _) (started_recorded apart) run
  exact get_flag_recorded recorded tick payload expected

end Runs
end KosSim.PolicyForge
