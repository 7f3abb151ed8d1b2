import KosSim.Library.Cuts
import Mathlib.Data.List.Infix
import Mathlib.Data.List.TakeWhile

/-!
policy_dsl.ex: the policy language of PolicyForge. Prefixes are compared in lower case and cut off
as they are written, and an expression behind `unless` is not searched for private objects.
-/

namespace KosSim.PolicyDsl
open Library

abbrev Text := List Char

/-- The case mappings of Unicode, character by character. On ASCII they are the usual ones, and no
character but the blank becomes one. -/
structure CaseMap where
  lower : Char → Text
  upper : Char → Text
  lowerAscii : ∀ c, c.toNat < 128 → lower c = [c.toLower]
  upperAscii : ∀ c, c.toNat < 128 → upper c = [c.toUpper]
  lowerBlank : ∀ c, ' ' ∈ lower c → c = ' '

/-- ASCII alone. -/
def asciiCase : CaseMap where
  lower c := [c.toLower]
  upper c := [c.toUpper]
  lowerAscii _ _ := rfl
  upperAscii _ _ := rfl
  lowerBlank c blank := by
    have same := List.mem_singleton.mp blank
    by_cases upper : c.val ≥ 'A'.val ∧ c.val ≤ 'Z'.val
    · have value := congrArg Char.toNat same
      have low := UInt32.le_iff_toNat_le.mp upper.1
      have high := UInt32.le_iff_toNat_le.mp upper.2
      have lowered : c.toLower.toNat = c.toNat + 32 := by
        refine (congrArg Char.toNat (dif_pos upper)).trans ?_
        show (c.val + ('a'.val - 'A'.val)).toNat = _
        rw [UInt32.toNat_add]
        show (c.val.toNat + 32) % 2 ^ 32 = _
        have : 'Z'.val.toNat = 90 := rfl
        rw [Nat.mod_eq_of_lt (by omega)]
        rfl
      have blankValue : ' '.toNat = 32 := rfl
      have least : 'A'.val.toNat = 65 := rfl
      have here : c.toNat = c.val.toNat := rfl
      omega
    · exact (same.trans (dif_neg upper : c.toLower = c)).symm

def CaseMap.downcase (cases : CaseMap) (text : Text) : Text := text.flatMap cases.lower

def CaseMap.upcase (cases : CaseMap) (text : Text) : Text := text.flatMap cases.upper

/-! The source. -/

/-- String.replace_prefix with the empty text. -/
def replacePrefix (front text : Text) : Text := if front <+: text then text.drop front.length else text

def allowPublic : Text := "allow public::".toList

def allowPrivate : Text := "allow private::".toList

def unlessMark : Text := "unless ".toList

def privateMark : Text := "private:".toList

/-- What becomes of an expression before an object is looked up. -/
inductive Rule where
  | scopeDenied
  | noRule
  | load (id : Text)
  deriving DecidableEq

variable (cases : CaseMap)

def rawEval (expr : Text) : Rule :=
  let lowered := cases.downcase expr
  if allowPrivate <+: lowered then .load (replacePrefix allowPrivate expr)
  else if allowPublic <+: lowered then .load (replacePrefix allowPublic expr)
  else .noRule

/-- The guard is cut off and not evaluated. -/
def evalUnless (raw : Text) : Rule :=
  let rest := replacePrefix unlessMark raw
  let inner :=
    match cutAt [' '] rest with
    | some (_, inner) => inner
    | none => rest
  rawEval cases inner

/-- unlessKept: the keyword is in the language; one of the patches takes it out. -/
def eval (unlessKept : Bool) (raw : Text) : Rule :=
  let normalized := cases.downcase raw
  if unlessKept ∧ unlessMark <+: normalized then evalUnless cases raw
  else if privateMark <:+: normalized then .scopeDenied
  else if allowPublic <+: normalized then .load (replacePrefix allowPublic raw)
  else .noRule

/-! The expressions that load an object. -/

/-- The texts behind a guard that load an object by its id. -/
def forms : List Text := [allowPrivate, allowPublic]

/-- shouted: the keyword with a letter in upper case is not cut off, and stands for the guard itself. -/
inductive Loads (unlessKept : Bool) (id : Text) : Text → Prop where
  | plain (open_ : ¬privateMark <:+: cases.downcase (allowPublic ++ id)) :
      Loads unlessKept id (allowPublic ++ id)
  | guarded (kept : unlessKept = true) (guard form : Text) (free : ' ' ∉ guard) (listed : form ∈ forms) :
      Loads unlessKept id (unlessMark ++ (guard ++ ' ' :: (form ++ id)))
  | shouted (kept : unlessKept = true) (word form : Text) (lowered : cases.downcase word = "unless".toList)
      (other : word ≠ "unless".toList) (listed : form ∈ forms) :
      Loads unlessKept id (word ++ ' ' :: (form ++ id))

variable {cases}

theorem downcase_append (one other : Text) :
    cases.downcase (one ++ other) = cases.downcase one ++ cases.downcase other := List.flatMap_append

theorem downcase_ascii {text : Text} (lower : ∀ c ∈ text, c.toNat < 128 ∧ c.toLower = c) :
    cases.downcase text = text := by
  induction text with
  | nil => rfl
  | cons c rest ih =>
      obtain ⟨here, later⟩ := List.forall_mem_cons.mp lower
      have tail : rest.flatMap cases.lower = rest := ih later
      rw [CaseMap.downcase, List.flatMap_cons, cases.lowerAscii c here.1, here.2, tail]
      rfl

theorem downcase_blank : cases.downcase [' '] = [' '] :=
  downcase_ascii (List.forall_mem_singleton.mpr (by decide))

theorem blank_downcase (text : Text) : ' ' ∈ cases.downcase text ↔ ' ' ∈ text := by
  constructor
  · intro member
    obtain ⟨c, inside, blank⟩ := List.mem_flatMap.mp member
    exact cases.lowerBlank c blank ▸ inside
  · intro member
    refine List.mem_flatMap.mpr ⟨' ', member, ?_⟩
    rw [cases.lowerAscii ' ' (by decide)]
    decide

/-- A lower-case text at the front of an expression is there in lower case too. -/
theorem front_downcase {front : Text} (lower : ∀ c ∈ front, c.toNat < 128 ∧ c.toLower = c) (rest : Text) :
    front <+: cases.downcase (front ++ rest) := by
  rw [downcase_append, downcase_ascii lower]
  exact List.prefix_append _ _

theorem form_lower {form : Text} (listed : form ∈ forms) : ∀ c ∈ form, c.toNat < 128 ∧ c.toLower = c := by
  have each : ∀ form ∈ forms, form.all fun c => decide (c.toNat < 128 ∧ c.toLower = c) := by decide
  exact fun c member => of_decide_eq_true (List.all_eq_true.mp (each form listed) c member)

theorem replace_front (front rest : Text) : replacePrefix front (front ++ rest) = rest := by
  rw [replacePrefix, if_pos (List.prefix_append _ _), List.drop_left]

/-- An id without a blank is what stands behind the form. -/
theorem replace_loads {form raw id : Text} (listed : form ∈ forms) (front : form <+: cases.downcase raw)
    (plain : ' ' ∉ id) (same : replacePrefix form raw = id) : raw = form ++ id := by
  unfold replacePrefix at same
  split at same
  · next exact =>
      obtain ⟨rest, rfl⟩ := exact
      rw [List.drop_left] at same
      rw [same]
  · -- the whole text is the id, but a form has a blank in it
    have inside : ' ' ∈ form := by
      have each : ∀ form ∈ forms, ' ' ∈ form := by decide
      exact each form listed
    rw [← same] at plain
    exact absurd ((blank_downcase raw).mp (front.subset inside)) plain

theorem raw_eval_loads {expr id : Text} (plain : ' ' ∉ id) :
    rawEval cases expr = .load id ↔ ∃ form ∈ forms, expr = form ++ id := by
  have both : allowPrivate ∈ forms ∧ allowPublic ∈ forms := by decide
  constructor
  · intro loaded
    unfold rawEval at loaded
    dsimp only at loaded
    split at loaded
    · next front => exact ⟨allowPrivate, both.1, replace_loads both.1 front plain (Rule.load.inj loaded)⟩
    split at loaded
    · next front => exact ⟨allowPublic, both.2, replace_loads both.2 front plain (Rule.load.inj loaded)⟩
    · cases loaded
  · rintro ⟨form, listed, rfl⟩
    have front : form <+: cases.downcase (form ++ id) := front_downcase (form_lower listed) id
    unfold rawEval
    dsimp only
    rcases List.mem_pair.mp listed with rfl | rfl
    · rw [if_pos front, replace_front]
    · have other : ¬allowPrivate <+: cases.downcase (allowPublic ++ id) := by
        intro both
        have longer := List.prefix_of_prefix_length_le front both (by decide)
        exact absurd longer (by decide)
      rw [if_neg other, if_pos front, replace_front]

theorem cut_blank {text guard inner : Text} (cut : cutAt [' '] text = some (guard, inner)) :
    text = guard ++ ' ' :: inner ∧ ' ' ∉ guard := by
  refine ⟨cut_parts cut, fun member => ?_⟩
  have free := cut_take_while ' ' text
  rw [cut, Option.map_some, Option.getD_some] at free
  have same : guard = text.takeWhile fun c => decide (c ≠ ' ') := free
  rw [same] at member
  have other := List.mem_takeWhile_imp member
  exact of_decide_eq_true other rfl

theorem keyword_lower (rest : Text) : unlessMark <+: cases.downcase (unlessMark ++ rest) := by
  refine front_downcase (fun c member => ?_) rest
  have each : unlessMark.all fun c => decide (c.toNat < 128 ∧ c.toLower = c) := by decide
  exact of_decide_eq_true (List.all_eq_true.mp each c member)

/-- Of a keyword in other letters, the first blank is the one behind it. -/
theorem keyword_cut {guard inner : Text} (front : unlessMark <+: cases.downcase (guard ++ ' ' :: inner))
    (free : ' ' ∉ guard) : cases.downcase guard = "unless".toList := by
  obtain ⟨rest, whole⟩ := front
  have blank : cases.downcase (guard ++ ' ' :: inner) = cases.downcase guard ++
      ' ' :: cases.downcase inner := by
    rw [← List.singleton_append, downcase_append, downcase_append, downcase_blank]
    rfl
  have mark : unlessMark = "unless".toList ++ [' '] := by decide
  have keyword : ' ' ∉ "unless".toList := by decide
  have left := cut_mark keyword rest
  have right := cut_mark (fun member => free ((@blank_downcase cases guard).mp member))
    (cases.downcase inner)
  rw [← blank, ← whole, mark, List.append_assoc, List.singleton_append, left] at right
  exact (Prod.mk.inj (Option.some.inj right)).1.symm

theorem eval_unless_loads {raw id : Text} (plain : ' ' ∉ id) (front : unlessMark <+: cases.downcase raw) :
    evalUnless cases raw = .load id ↔ Loads cases true id raw := by
  have public_ : ¬unlessMark <+: cases.downcase (allowPublic ++ id) := by
    intro both
    have other : allowPublic <+: cases.downcase (allowPublic ++ id) :=
      front_downcase (form_lower (by decide)) id
    exact absurd (List.prefix_of_prefix_length_le both other (by decide)) (by decide)
  constructor
  · intro loaded
    unfold evalUnless at loaded
    dsimp only at loaded
    rw [raw_eval_loads plain] at loaded
    obtain ⟨form, listed, inner_⟩ := loaded
    cases cut : cutAt [' '] (replacePrefix unlessMark raw) with
    | none =>
        rw [cut] at inner_
        dsimp only at inner_
        have inside : ' ' ∈ form ++ id := by
          have each : ∀ form ∈ forms, ' ' ∈ form := by decide
          exact List.mem_append_left _ (each form listed)
        rw [← inner_] at inside
        obtain ⟨before, after, split⟩ := List.append_of_mem inside
        have found := cut_found before [' '] after
        rw [List.singleton_append, ← split, cut] at found
        exact absurd rfl found
    | some parts =>
        obtain ⟨guard, inner⟩ := parts
        rw [cut] at inner_
        dsimp only at inner_
        obtain ⟨whole, free⟩ := cut_blank cut
        unfold replacePrefix at whole
        split at whole
        · next exact =>
            obtain ⟨rest, rfl⟩ := exact
            rw [List.drop_left, inner_] at whole
            rw [whole]
            exact .guarded rfl guard form free listed
        · next other =>
            rw [whole] at front
            have lowered := keyword_cut front free
            rw [whole, inner_]
            refine .shouted rfl guard form lowered (fun same => other ?_) listed
            rw [whole, same]
            exact ⟨inner, rfl⟩
  · intro loads
    cases loads with
    | plain open_ => exact absurd front public_
    | guarded _ guard form free listed =>
        unfold evalUnless
        dsimp only
        rw [replace_front, cut_mark free]
        exact (raw_eval_loads plain).mpr ⟨form, listed, rfl⟩
    | shouted _ word form lowered other listed =>
        have free : ' ' ∉ word := by
          intro member
          have inside := (@blank_downcase cases word).mpr member
          rw [lowered] at inside
          exact absurd inside (by decide)
        have kept : replacePrefix unlessMark (word ++ ' ' :: (form ++ id)) = word ++
            ' ' :: (form ++ id) := by
          refine if_neg fun exact => other ?_
          obtain ⟨rest, whole⟩ := exact
          have mark : unlessMark = "unless".toList ++ [' '] := by decide
          have left := cut_mark (by decide : ' ' ∉ "unless".toList) rest
          rw [mark, List.append_assoc, List.singleton_append] at whole
          rw [whole, cut_mark free] at left
          exact (Prod.mk.inj (Option.some.inj left)).1
        unfold evalUnless
        dsimp only
        rw [kept, cut_mark free]
        exact (raw_eval_loads plain).mpr ⟨form, listed, rfl⟩

/-- The language, exactly: the expressions that load an object whose id has no blank. -/
theorem eval_loads_iff (cases : CaseMap) (unlessKept : Bool) (raw id : Text) (plain : ' ' ∉ id) :
    eval cases unlessKept raw = .load id ↔ Loads cases unlessKept id raw := by
  unfold eval
  dsimp only
  by_cases keyword : unlessKept = true ∧ unlessMark <+: cases.downcase raw
  · rw [if_pos keyword, eval_unless_loads plain keyword.2, keyword.1]
  rw [if_neg keyword]
  have public_ : allowPublic <+: cases.downcase (allowPublic ++ id) :=
    front_downcase (form_lower (by decide)) id
  constructor
  · intro loaded
    split at loaded
    · cases loaded
    next open_ =>
    split at loaded
    · next front =>
        have whole := replace_loads (by decide) front plain (Rule.load.inj loaded)
        rw [whole] at open_ ⊢
        exact .plain open_
    · cases loaded
  · intro loads
    cases loads with
    | plain open_ => rw [if_neg open_, if_pos public_, replace_front]
    | guarded kept guard form free listed => exact absurd ⟨kept, keyword_lower _⟩ keyword
    | shouted kept word form lowered other listed =>
        refine absurd ⟨kept, ?_⟩ keyword
        rw [← List.singleton_append, downcase_append, downcase_append, lowered, downcase_blank]
        exact ⟨cases.downcase (form ++ id), rfl⟩

theorem shouted_loads : eval asciiCase true "UNLESS allow private::f00d".toList = .load "f00d".toList :=
  (eval_loads_iff asciiCase true "UNLESS allow private::f00d".toList "f00d".toList (by decide)).mpr
    (.shouted rfl "UNLESS".toList allowPrivate (by decide) (by decide) (by decide))

end KosSim.PolicyDsl
