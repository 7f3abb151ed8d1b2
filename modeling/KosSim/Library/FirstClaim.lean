import Mathlib.Data.List.Count
import Mathlib.Logic.Function.Basic

/-!
A slot that the first of several transactions marks as its own. A transaction tries
a lock on the slot without waiting, looks for entries it can see if it has won, and
inserts an entry that is marked if there was none; the lock lives until it ends.
At most one marked entry is ever stored. When every transaction has ended, one is, if
anything is stored at all, unless one of two steps was taken: a loser of the lock
stored the first entry while nobody had found the slot empty, or a transaction that had
found it empty left after another one had stored an entry.
-/

namespace KosSim.Library.FirstClaim

structure Party where
  holds : Bool
  lost : Bool                  -- an attempt for the lock has failed
  verdict : Option Bool        -- the mark of the entry that it will insert next
  entries : List Bool          -- the marks of the entries it has inserted
  deriving DecidableEq

def Party.fresh : Party := ⟨false, false, none, []⟩

structure Slot (ι : Type) where
  stored : List Bool
  parties : ι → Option Party

section Slots
variable {ι : Type}

def Slot.held (slot : Slot ι) (id : ι) : Prop :=
  ∃ other party, other ≠ id ∧ slot.parties other = some party ∧ party.holds = true

def marks (entries : List Bool) : Nat := entries.count true

/-- The marks that a transaction has inserted or is about to insert. -/
def Party.weight (party : Party) : Nat := marks party.entries + if party.verdict = some true then 1 else 0

structure Single (slot : Slot ι) : Prop where
  stored : marks slot.stored ≤ 1
  exclusive : ∀ one two first second, slot.parties one = some first → slot.parties two = some second →
    first.holds = true → second.holds = true → one = two
  backed : ∀ id party, slot.parties id = some party → 0 < party.weight → party.holds = true
  once : ∀ id party, slot.parties id = some party → marks slot.stored + party.weight ≤ 1

/-- How the mark of an entry comes about. Until something is stored, the first entry of a
transaction that has lost no attempt is marked; one that has lost one never marks an entry. -/
structure Judged (slot : Slot ι) : Prop where
  entries : ∀ id party, slot.parties id = some party → party.lost = false → slot.stored = [] →
    party.entries ≠ [] → 0 < marks party.entries
  verdict : ∀ id party, slot.parties id = some party → party.lost = false → slot.stored = [] →
    party.verdict = some false → party.entries ≠ []
  loser : ∀ id party, slot.parties id = some party → party.lost = true → party.weight = 0
  inserted : ∀ id party, slot.parties id = some party → party.lost = true → party.verdict = none →
    party.entries ≠ []

/-- Some transaction other than this one has found the slot empty. -/
def Slot.promised (slot : Slot ι) (id : ι) : Prop :=
  ∃ other party, other ≠ id ∧ slot.parties other = some party ∧ 0 < party.weight

/-- What is stored has its mark, or an open transaction brings it. -/
def Marked (slot : Slot ι) : Prop :=
  slot.stored ≠ [] → marks slot.stored = 1 ∨ ∃ id party, slot.parties id = some party ∧ 0 < party.weight

/-- Something is stored, and it will never have a mark. -/
structure Unmarked (slot : Slot ι) : Prop where
  something : slot.stored ≠ []
  stored : marks slot.stored = 0
  open_ : ∀ id party, slot.parties id = some party → party.weight = 0

/-- A holder stays the only one. -/
theorem holder_free {slot : Slot ι} (single : Single slot) {id : ι} {party : Party}
    (present : slot.parties id = some party) (holds : party.holds = true) : ¬slot.held id := by
  rintro ⟨other, found, distinct, presentOther, also⟩
  exact distinct (single.exclusive other id found party presentOther present also holds)

variable [DecidableEq ι]

def Slot.put (slot : Slot ι) (id : ι) (party : Option Party) : Slot ι :=
  { slot with parties := Function.update slot.parties id party }

/-- What a step does to the transaction that takes it. -/
inductive Outcome (ι : Type) where
  | goesOn
  | commits (id : ι)
  | leaves (id : ι)

inductive Claims (slot : Slot ι) : Outcome ι → Slot ι → Prop where
  | enter (id : ι) (absent : slot.parties id = none) : Claims slot .goesOn (slot.put id (some Party.fresh))
  | leave (id : ι) : Claims slot (.leaves id) (slot.put id none)
  | win (id : ι) (party : Party) (present : slot.parties id = some party) (free : ¬slot.held id) :
      Claims slot .goesOn (slot.put id (some { party with holds := true }))
  | lose (id : ι) (party : Party) (present : slot.parties id = some party) (held : slot.held id) :
      Claims slot .goesOn (slot.put id (some { party with lost := true, verdict := some false }))
  | look (id : ι) (party : Party) (present : slot.parties id = some party) (holds : party.holds = true)
      (unjudged : party.verdict = none) :
      Claims slot .goesOn (slot.put id (some { party with
        verdict := some (slot.stored.isEmpty && party.entries.isEmpty) }))
  | insert (id : ι) (party : Party) (mark : Bool) (present : slot.parties id = some party)
      (judged : party.verdict = some mark) :
      Claims slot .goesOn (slot.put id (some { party with
        verdict := none, entries := party.entries ++ [mark] }))
  | commit (id : ι) (party : Party) (present : slot.parties id = some party)
      (unjudged : party.verdict = none) : Claims slot (.commits id)
        { stored := slot.stored ++ party.entries, parties := Function.update slot.parties id none }

/-- Neither of the two steps that lose the mark. -/
def Keeps (slot : Slot ι) : Outcome ι → Prop
  | .goesOn => True
  | .commits id => ∀ party, slot.parties id = some party → slot.stored = [] → party.entries ≠ [] →
      party.lost = true → slot.promised id
  | .leaves id => ∀ party, slot.parties id = some party → slot.stored ≠ [] → party.weight = 0

theorem put_some {slot : Slot ι} {id other : ι} {party : Option Party} {found : Party}
    (present : (slot.put id party).parties other = some found) :
    other = id ∧ party = some found ∨ other ≠ id ∧ slot.parties other = some found := by
  by_cases here : other = id
  · subst here
    exact Or.inl ⟨rfl, by simpa [Slot.put] using present⟩
  · exact Or.inr ⟨here, by simpa [Slot.put, here] using present⟩

theorem marks_append (one two : List Bool) : marks (one ++ two) = marks one + marks two := List.count_append

/-- A party that changes alone keeps the invariant if it keeps its part of it. -/
theorem single_put {slot : Slot ι} (single : Single slot) (id : ι) (party : Party)
    (free : party.holds = true → ¬slot.held id) (backed : 0 < party.weight → party.holds = true)
    (once : marks slot.stored + party.weight ≤ 1) : Single (slot.put id (some party)) := by
  have apart (holds : party.holds = true) (other : ι) (found : Party) (distinct : other ≠ id)
      (present : slot.parties other = some found) : found.holds ≠ true :=
    fun also => free holds ⟨other, found, distinct, present, also⟩
  refine ⟨single.stored, ?_, ?_, ?_⟩
  · intro one two first second presentOne presentTwo holdsOne holdsTwo
    rcases put_some presentOne with ⟨here, same⟩ | ⟨distinctOne, oldOne⟩
    · rcases put_some presentTwo with ⟨there, _⟩ | ⟨distinctTwo, oldTwo⟩
      · exact here.trans there.symm
      · cases same
        exact absurd holdsTwo (apart holdsOne two second distinctTwo oldTwo)
    · rcases put_some presentTwo with ⟨_, same⟩ | ⟨_, oldTwo⟩
      · cases same
        exact absurd holdsOne (apart holdsTwo one first distinctOne oldOne)
      · exact single.exclusive one two first second oldOne oldTwo holdsOne holdsTwo
  · intro other found present positive
    rcases put_some present with ⟨_, same⟩ | ⟨_, old⟩
    · cases same
      exact backed positive
    · exact single.backed other found old positive
  · intro other found present
    rcases put_some present with ⟨_, same⟩ | ⟨_, old⟩
    · cases same
      exact once
    · exact single.once other found old

theorem single_remove {slot : Slot ι} (single : Single slot) (id : ι) : Single (slot.put id none) := by
  have old {other : ι} {found : Party} (present : (slot.put id none).parties other = some found) :
      slot.parties other = some found := by
    rcases put_some present with ⟨_, never⟩ | ⟨_, old⟩
    · cases never
    · exact old
  exact ⟨single.stored, fun one two first second presentOne presentTwo =>
    single.exclusive one two first second (old presentOne) (old presentTwo),
    fun other found present => single.backed other found (old present),
    fun other found present => single.once other found (old present)⟩

theorem insert_weight {party : Party} {mark : Bool} (judged : party.verdict = some mark) :
    Party.weight { party with verdict := none, entries := party.entries ++ [mark] } = party.weight := by
  unfold Party.weight
  dsimp only
  rw [judged, marks_append]
  cases mark <;> rfl

theorem single_step {before after : Slot ι} {outcome : Outcome ι} (single : Single before)
    (claims : Claims before outcome after) : Single after := by
  cases claims with
  | enter id absent =>
      refine single_put single id Party.fresh (fun never => by cases never) ?_ ?_
      · intro positive
        exact absurd positive (Nat.lt_irrefl 0)
      · exact single.stored
  | leave id => exact single_remove single id
  | win id party present free =>
      exact single_put single id _ (fun _ => free) (fun _ => rfl) (single.once id party present)
  | lose id party present held =>
      have once := single.once id party present
      -- A verdict not to mark can only take weight away.
      have less : Party.weight { party with lost := true, verdict := some false } ≤ party.weight := by
        simp [Party.weight]
      refine single_put single id _ (fun holds => absurd held (holder_free single present holds))
        ?_ (by omega)
      intro positive
      exact single.backed id party present (by omega)
  | look id party present holds unjudged =>
      -- Only a party that sees nothing gains weight, and then nothing is stored that is marked.
      refine single_put single id _ (fun _ => holder_free single present holds) (fun _ => holds) ?_
      have once := single.once id party present
      unfold Party.weight at *
      dsimp only
      split
      · next unseen =>
        rw [Option.some.injEq, Bool.and_eq_true, List.isEmpty_iff, List.isEmpty_iff] at unseen
        rw [unseen.1, unseen.2]
        exact Nat.le_refl 1
      · omega
  | insert id party mark present judged =>
      have once := single.once id party present
      have same := insert_weight judged
      refine single_put single id _ (fun holds => holder_free single present holds) ?_ (by omega)
      intro positive
      exact single.backed id party present (by omega)
  | commit id party present unjudged =>
      have once := single.once id party present
      have total : marks (before.stored ++ party.entries) ≤ 1 := by
        rw [marks_append]
        unfold Party.weight at once
        omega
      have removed := single_remove single id
      refine ⟨total, removed.exclusive, removed.backed, ?_⟩
      intro other found presentOther
      have stored : (before.put id none).parties other = some found := presentOther
      rcases put_some stored with ⟨_, never⟩ | ⟨distinct, old⟩
      · cases never
      rw [marks_append]
      have otherOnce := single.once other found old
      by_cases positive : 0 < marks party.entries
      · -- The committing party holds the lock, so the other one has no mark.
        have holds := single.backed id party present (by unfold Party.weight; omega)
        have idle : found.weight = 0 := by
          by_contra weighty
          exact distinct (single.exclusive other id found party old present
            (single.backed other found old (by omega)) holds)
        unfold Party.weight at once
        omega
      · omega

/-! The mark of the first stored entry. -/

theorem weight_judged (party : Party) (unjudged : party.verdict = none) :
    party.weight = marks party.entries := by
  unfold Party.weight
  rw [unjudged]
  rfl

theorem committed_some {slot : Slot ι} {id other : ι} {found : Party}
    (present : Function.update slot.parties id none other = some found) :
    other ≠ id ∧ slot.parties other = some found := by
  have left : (slot.put id none).parties other = some found := present
  rcases put_some left with ⟨_, never⟩ | old
  · cases never
  · exact old

theorem judged_put {slot : Slot ι} (judged : Judged slot) (id : ι) (party : Party)
    (entries : party.lost = false → slot.stored = [] → party.entries ≠ [] → 0 < marks party.entries)
    (verdict : party.lost = false → slot.stored = [] → party.verdict = some false → party.entries ≠ [])
    (loser : party.lost = true → party.weight = 0)
    (inserted : party.lost = true → party.verdict = none → party.entries ≠ []) :
    Judged (slot.put id (some party)) := by
  constructor
  all_goals
    intro other found present
    rcases put_some present with ⟨_, same⟩ | ⟨_, old⟩
  · cases same
    exact entries
  · exact judged.entries other found old
  · cases same
    exact verdict
  · exact judged.verdict other found old
  · cases same
    exact loser
  · exact judged.loser other found old
  · cases same
    exact inserted
  · exact judged.inserted other found old

/-- A transaction that ends leaves the others judged as they were. -/
theorem judged_end {slot : Slot ι} (judged : Judged slot) (id : ι) (rows : List Bool) :
    Judged { stored := slot.stored ++ rows, parties := Function.update slot.parties id none } := by
  have nothing (empty : slot.stored ++ rows = []) : slot.stored = [] := (List.append_eq_nil_iff.mp empty).1
  constructor
  · intro other found present intact empty
    exact judged.entries other found (committed_some present).2 intact (nothing empty)
  · intro other found present intact empty
    exact judged.verdict other found (committed_some present).2 intact (nothing empty)
  · exact fun other found present => judged.loser other found (committed_some present).2
  · exact fun other found present => judged.inserted other found (committed_some present).2

theorem judged_step {before after : Slot ι} {outcome : Outcome ι} (single : Single before)
    (judged : Judged before) (claims : Claims before outcome after) : Judged after := by
  cases claims with
  | enter id absent =>
      exact judged_put judged id Party.fresh (fun _ _ never => absurd rfl never)
        (fun _ _ never => by cases never)
        (fun never => by cases never) (fun never => by cases never)
  | leave id =>
      have ended := judged_end judged id []
      rw [List.append_nil] at ended
      exact ended
  | win id party present free =>
      exact judged_put judged id _ (judged.entries id party present) (judged.verdict id party present)
        (judged.loser id party present) (judged.inserted id party present)
  | lose id party present held =>
      refine judged_put judged id _ (fun never => by cases never) (fun never => by cases never) ?_
        (fun _ never => by cases never)
      -- The loser holds no lock, so it has not marked an entry before.
      intro _
      have unmarked : party.weight = 0 := by
        by_contra weighty
        exact holder_free single present (single.backed id party present (by omega)) held
      unfold Party.weight at unmarked ⊢
      simp only [Option.some.injEq, Bool.false_eq_true, ↓reduceIte]
      omega
  | look id party present holds unjudged =>
      refine judged_put judged id _ (judged.entries id party present) ?_ ?_ (fun _ never => by cases never)
      · intro intact empty seen
        simpa [empty] using seen
      · intro lost
        -- Who has lost before has inserted since, and sees its own entry.
        have late := judged.inserted id party present lost unjudged
        have unmarked := judged.loser id party present lost
        rw [weight_judged party unjudged] at unmarked
        simp [Party.weight, late, unmarked]
  | insert id party mark present verdict =>
      refine judged_put judged id _ ?_ (fun _ _ never => by cases never) ?_ (fun _ _ => by simp)
      · intro intact empty _
        show 0 < marks (party.entries ++ [mark])
        rw [marks_append]
        cases mark with
        | true => exact Nat.lt_add_left _ Nat.zero_lt_one
        | false =>
            -- An unmarked entry is not the first one of a party that has lost no attempt.
            have inserted := judged.verdict id party present intact empty verdict
            have marked := judged.entries id party present intact empty inserted
            omega
      · intro lost
        have unmarked := judged.loser id party present lost
        rw [← insert_weight verdict] at unmarked
        exact unmarked
  | commit id party present unjudged => exact judged_end judged id party.entries

/-- A party that changes alone and keeps its weight keeps the mark promised. -/
theorem marked_put {slot : Slot ι} (marked : Marked slot) (id : ι) {party : Party}
    (weight : ∀ old, slot.parties id = some old → 0 < old.weight → 0 < party.weight) :
    Marked (slot.put id (some party)) := by
  intro something
  rcases marked something with stored | ⟨other, found, present, weighty⟩
  · exact Or.inl stored
  right
  by_cases here : other = id
  · subst here
    exact ⟨other, party, Function.update_self .., weight found present weighty⟩
  · exact ⟨other, found, (Function.update_of_ne here ..).trans present, weighty⟩

theorem marked_commit {slot : Slot ι} (single : Single slot) (judged : Judged slot)
    (marked : Marked slot) {id : ι} {party : Party} (present : slot.parties id = some party)
    (unjudged : party.verdict = none) (keeps : Keeps slot (.commits id)) :
    Marked { stored := slot.stored ++ party.entries, parties := Function.update slot.parties id none } := by
  intro something
  have once := single.once id party present
  rw [weight_judged party unjudged] at once
  show marks (slot.stored ++ party.entries) = 1 ∨ _
  rw [marks_append]
  have brings (own : 0 < marks party.entries) : marks slot.stored + marks party.entries = 1 := by omega
  have other_brings (promised : slot.promised id) :
      ∃ other found, Function.update slot.parties id none other = some found ∧ 0 < found.weight := by
    obtain ⟨other, found, apart, there, weighty⟩ := promised
    exact ⟨other, found, (Function.update_of_ne apart ..).trans there, weighty⟩
  -- The first commit brings the mark itself unless it had lost; then the promised one stays open.
  by_cases before : slot.stored = []
  · have inserted : party.entries ≠ [] := fun none_ => something (by simp [before, none_])
    cases lost : party.lost with
    | false => exact Or.inl (brings (judged.entries id party present lost before inserted))
    | true => exact Or.inr (other_brings (keeps party present before inserted lost))
  · rcases marked before with one | ⟨other, found, there, weighty⟩
    · left
      omega
    · by_cases here : other = id
      · subst here
        rw [present, Option.some.injEq] at there
        rw [← there, weight_judged party unjudged] at weighty
        exact Or.inl (brings weighty)
      · exact Or.inr (other_brings ⟨other, found, here, there, weighty⟩)

/-- A step that is neither of the two keeps the mark. -/
theorem marked_step {before after : Slot ι} {outcome : Outcome ι} (single : Single before)
    (judged : Judged before) (marked : Marked before) (claims : Claims before outcome after)
    (keeps : Keeps before outcome) : Marked after := by
  cases claims with
  | enter id absent =>
      refine marked_put marked id ?_
      intro old present
      rw [absent] at present
      cases present
  | leave id =>
      intro something
      rcases marked something with stored | ⟨other, found, present, weighty⟩
      · exact Or.inl stored
      refine Or.inr ⟨other, found, ?_, weighty⟩
      refine (Function.update_of_ne ?_ ..).trans present
      intro here
      subst here
      -- The party that leaves brings no mark, so the one that does stays.
      have unmarked := keeps found present something
      omega
  | win id party present free =>
      refine marked_put marked id ?_
      intro old there weighty
      rw [present, Option.some.injEq] at there
      rw [← there] at weighty
      exact weighty
  | lose id party present held =>
      refine marked_put marked id ?_
      intro old there weighty
      exact absurd held (holder_free single there (single.backed id old there weighty))
  | look id party present holds unjudged =>
      refine marked_put marked id ?_
      intro old there weighty
      rw [present, Option.some.injEq] at there
      rw [← there, weight_judged party unjudged] at weighty
      exact Nat.lt_of_lt_of_le weighty (Nat.le_add_right _ _)
  | insert id party mark present verdict =>
      refine marked_put marked id ?_
      intro old there weighty
      rw [present, Option.some.injEq] at there
      rw [insert_weight verdict, there]
      exact weighty
  | commit id party present unjudged => exact marked_commit single judged marked present unjudged keeps

/-- Each of the two steps loses the mark. -/
theorem unmarked_begins {before after : Slot ι} {outcome : Outcome ι} (single : Single before)
    (judged : Judged before) (claims : Claims before outcome after) (loses : ¬Keeps before outcome) :
    Unmarked after := by
  cases claims with
  | leave id =>
      simp only [Keeps, not_forall] at loses
      obtain ⟨party, present, something, weighty⟩ := loses
      have once := single.once id party present
      refine ⟨something, ?_, ?_⟩
      · show marks before.stored = 0
        omega
      · intro other found there
        rcases put_some there with ⟨_, never⟩ | ⟨apart, old⟩
        · cases never
        by_contra also
        exact apart (single.exclusive other id found party old present
          (single.backed other found old (by omega)) (single.backed id party present (by omega)))
  | commit id party present unjudged =>
      simp only [Keeps, not_forall] at loses
      obtain ⟨other, there, empty, inserted, lost, unpromised⟩ := loses
      rw [present, Option.some.injEq] at there
      subst there
      have unmarked := judged.loser id party present lost
      rw [weight_judged party unjudged] at unmarked
      refine ⟨?_, ?_, ?_⟩
      · exact fun none_ => inserted (List.append_eq_nil_iff.mp none_).2
      · show marks (before.stored ++ party.entries) = 0
        rw [empty]
        exact unmarked
      · intro other found there
        obtain ⟨apart, old⟩ := committed_some there
        by_contra weighty
        exact unpromised ⟨other, found, apart, old, by omega⟩
  | enter | win | lose | look | insert => exact absurd trivial loses

theorem unmarked_put {slot : Slot ι} (unmarked : Unmarked slot) (id : ι) {party : Party}
    (weight : party.weight = 0) :
    Unmarked (slot.put id (some party)) := by
  refine ⟨unmarked.something, unmarked.stored, ?_⟩
  intro other found present
  rcases put_some present with ⟨_, same⟩ | ⟨_, old⟩
  · cases same
    exact weight
  · exact unmarked.open_ other found old

/-- A lost mark never comes back. -/
theorem unmarked_step {before after : Slot ι} {outcome : Outcome ι} (unmarked : Unmarked before)
    (claims : Claims before outcome after) : Unmarked after := by
  cases claims with
  | enter id absent => exact unmarked_put unmarked id rfl
  | leave id =>
      exact ⟨unmarked.something, unmarked.stored, fun other found there =>
        unmarked.open_ other found (committed_some there).2⟩
  | win id party present free => exact unmarked_put unmarked id (unmarked.open_ id party present)
  | lose id party present held =>
      have weight := unmarked.open_ id party present
      refine unmarked_put unmarked id ?_
      unfold Party.weight at weight ⊢
      simp only [Option.some.injEq, Bool.false_eq_true, ↓reduceIte]
      omega
  | look id party present holds unjudged =>
      have weight := unmarked.open_ id party present
      rw [weight_judged party unjudged] at weight
      exact unmarked_put unmarked id (by simp [Party.weight, unmarked.something, weight])
  | insert id party mark present verdict =>
      refine unmarked_put unmarked id ?_
      rw [insert_weight verdict]
      exact unmarked.open_ id party present
  | commit id party present unjudged =>
      have weight := unmarked.open_ id party present
      rw [weight_judged party unjudged] at weight
      refine ⟨?_, ?_, fun other found there => unmarked.open_ other found (committed_some there).2⟩
      · exact fun none_ => unmarked.something (List.append_eq_nil_iff.mp none_).1
      · show marks (before.stored ++ party.entries) = 0
        rw [marks_append, unmarked.stored, weight]

theorem leave_removes {before after : Slot ι} {id : ι} (claims : Claims before (.leaves id) after) :
    after.parties id = none := by
  cases claims
  exact Function.update_self ..

/-- Only an end removes a party. -/
theorem party_removed {before after : Slot ι} {outcome : Outcome ι}
    (claims : Claims before outcome after) {id : ι} {party : Party}
    (present : before.parties id = some party) (gone : after.parties id = none) :
    outcome = .commits id ∨ outcome = .leaves id := by
  have kept (other : ι) (found : Party) : (before.put other (some found)).parties id ≠ none := by
    by_cases here : id = other
    · subst here
      simp [Slot.put]
    · simp [Slot.put, here, present]
  cases claims with
  | leave other =>
      right
      by_contra apart
      have here : id ≠ other := fun same => apart (by rw [same])
      simp [Slot.put, here, present] at gone
  | commit other found there unjudged =>
      left
      by_contra apart
      have here : id ≠ other := fun same => apart (by rw [same])
      simp [here, present] at gone
  | enter other | win other | lose other | look other | insert other => exact absurd gone (kept _ _)

end Slots
end KosSim.Library.FirstClaim
