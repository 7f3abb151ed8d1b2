import Mathlib.Data.List.Basic

/-! Monadic folds and maps over lists in Except: an invariant of the accumulator
is carried by every step, and a total step makes the whole total. `budgeted` is a
loop that may leave early: a result that leaving would spoil has seen every item. -/

namespace KosSim.Library

variable {α β ε : Type} {f : β → α → Except ε β}

theorem bind_ok_iff {γ : Type} {first : Except ε α} {next : α → Except ε γ} {out : γ} :
    first >>= next = .ok out ↔ ∃ middle, first = .ok middle ∧ next middle = .ok out := by
  cases first with
  | error error => constructor <;> simp [bind, Except.bind]
  | ok middle => simp [bind, Except.bind]

theorem map_ok_iff {γ : Type} {first : Except ε α} {g : α → γ} {out : γ} :
    first.map g = .ok out ↔ ∃ middle, first = .ok middle ∧ g middle = out := by
  cases first with
  | error error => simp [Except.map]
  | ok middle => simp [Except.map]

/-- The induction rule for a fold that succeeded. -/
theorem foldlM_keeps (invariant : β → Prop) {items : List α} {start last : β}
    (kept : ∀ acc item next, item ∈ items → invariant acc → f acc item = .ok next → invariant next)
    (begins : invariant start) (done : items.foldlM f start = .ok last) : invariant last := by
  induction items generalizing start with
  | nil =>
      rw [← Except.ok.inj done]
      exact begins
  | cons item rest ih =>
      rw [List.foldlM_cons] at done
      cases first : f start item with
      | error error => rw [first] at done; cases done
      | ok middle =>
          rw [first] at done
          exact ih (fun acc other next member => kept acc other next (List.mem_cons_of_mem _ member))
            (kept start item middle List.mem_cons_self begins first) done

theorem foldlM_total (items : List α) (start : β)
    (total : ∀ acc item, item ∈ items → ∃ next, f acc item = .ok next) :
    ∃ last, items.foldlM f start = .ok last := by
  induction items generalizing start with
  | nil => exact ⟨start, rfl⟩
  | cons item rest ih =>
      obtain ⟨middle, first⟩ := total start item List.mem_cons_self
      rw [List.foldlM_cons, first]
      exact ih middle fun acc other member => total acc other (List.mem_cons_of_mem _ member)

section Pure
variable {step : β → α → β} (invariant : β → Prop)

theorem foldl_keeps {items : List α}
    (kept : ∀ acc item, item ∈ items → invariant acc → invariant (step acc item)) {start : β}
    (begins : invariant start) : invariant (items.foldl step start) := by
  induction items generalizing start with
  | nil => exact begins
  | cons item rest ih =>
      exact ih (fun acc other member => kept acc other (List.mem_cons_of_mem _ member))
        (kept start item List.mem_cons_self begins)

/-- What one item of the list establishes and every step keeps holds in the end. -/
theorem foldl_reaches (good : β → Prop) {items : List α} {item : α} (member : item ∈ items)
    (kept : ∀ acc other, invariant acc → invariant (step acc other))
    (stays : ∀ acc other, invariant acc → good acc → good (step acc other))
    (makes : ∀ acc, invariant acc → good (step acc item)) {start : β} (begins : invariant start) :
    good (items.foldl step start) := by
  induction items generalizing start with
  | nil => cases member
  | cons first rest ih =>
      rcases List.mem_cons.mp member with here | later
      · have both : invariant (step start first) ∧ good (step start first) :=
          ⟨kept start first begins, here ▸ makes start begins⟩
        exact (foldl_keeps (fun acc => invariant acc ∧ good acc)
          (fun acc other _ held => ⟨kept acc other held.1, stays acc other held.1 held.2⟩) both).2
      · exact ih later (kept start first begins)

end Pure

theorem mapM_ok_iff {g : α → Except ε β} (items : List α) :
    (∃ outs, items.mapM g = .ok outs) ↔ ∀ item ∈ items, ∃ out, g item = .ok out := by
  induction items with
  | nil => exact ⟨fun _ item member => (List.not_mem_nil member).elim, fun _ => ⟨[], rfl⟩⟩
  | cons item rest ih =>
      rw [List.mapM_cons, List.forall_mem_cons, ← ih]
      cases first : g item with
      | error error =>
          constructor
          · rintro ⟨outs, done⟩; cases done
          · rintro ⟨⟨out, done⟩, _⟩; cases done
      | ok out =>
          cases others : rest.mapM g with
          | error error =>
              constructor
              · rintro ⟨outs, done⟩; cases done
              · rintro ⟨_, outs, done⟩; cases done
          | ok outs => exact ⟨fun _ => ⟨⟨out, rfl⟩, outs, rfl⟩, fun _ => ⟨out :: outs, rfl⟩⟩

/-- A count over the results is a count over the items. -/
theorem count_mapM {g : α → Except ε β} {items : List α} {outs : List β}
    (done : items.mapM g = .ok outs) (p : β → Bool) :
    outs.countP p = items.countP fun item => (g item).toOption.any p := by
  induction items generalizing outs with
  | nil =>
      rw [← Except.ok.inj done]
      rfl
  | cons item rest ih =>
      rw [List.mapM_cons] at done
      obtain ⟨out, first, done⟩ := bind_ok_iff.mp done
      obtain ⟨others, last, done⟩ := bind_ok_iff.mp done
      rw [← Except.ok.inj done, List.countP_cons, List.countP_cons, ih last, first]
      rfl

theorem mem_mapM_ok {g : α → Except ε β} {items : List α} {outs : List β}
    (done : items.mapM g = .ok outs) (out : β) :
    out ∈ outs ↔ ∃ item ∈ items, g item = .ok out := by
  induction items generalizing outs with
  | nil =>
      rw [← Except.ok.inj done]
      simp
  | cons item rest ih =>
      rw [List.mapM_cons] at done
      cases first : g item with
      | error error =>
          rw [first] at done
          cases done
      | ok head =>
          rw [first] at done
          cases others : rest.mapM g with
          | error error =>
              rw [others] at done
              cases done
          | ok tail =>
              rw [others] at done
              rw [← Except.ok.inj done, List.mem_cons, ih others]
              constructor
              · rintro (rfl | ⟨later, member, same⟩)
                · exact ⟨item, List.mem_cons_self, first⟩
                · exact ⟨later, List.mem_cons_of_mem _ member, same⟩
              · rintro ⟨later, member, same⟩
                rcases List.mem_cons.mp member with rfl | inside
                · exact .inl (Except.ok.inj (same.symm.trans first))
                · exact .inr ⟨later, inside, same⟩

/-- A loop that adds to a set: what is in it at the end was there or has been added. -/
theorem foldlM_adds {κ : Type} (has : β → κ → Bool) (adds : α → κ → Bool) {items : List α}
    {start last : β}
    (each : ∀ acc item next, item ∈ items → f acc item = .ok next →
      ∀ key, has next key = (adds item key || has acc key))
    (done : items.foldlM f start = .ok last) (key : κ) :
    has last key = ((items.any fun item => adds item key) || has start key) := by
  induction items generalizing start with
  | nil => rw [← Except.ok.inj done]; rfl
  | cons item rest ih =>
      rw [List.foldlM_cons] at done
      cases first : f start item with
      | error error => rw [first] at done; cases done
      | ok middle =>
          rw [first] at done
          rw [ih (fun acc other next member => each acc other next (List.mem_cons_of_mem _ member)) done,
            each start item middle List.mem_cons_self first key, List.any_cons, Bool.or_left_comm,
            Bool.or_assoc]

/-- A loop that writes cells: after it, a cell holds its value if some item writes it. -/
theorem foldlM_writes {κ ν : Type} (read : β → κ → Option ν) (writes : α → κ → Bool) (value : κ → ν)
    (invariant : β → Prop) {items : List α} {start last : β}
    (kept : ∀ acc item next, item ∈ items → invariant acc → f acc item = .ok next → invariant next)
    (each : ∀ acc item next, item ∈ items → invariant acc → f acc item = .ok next →
      ∀ cell, read next cell = if writes item cell then some (value cell) else read acc cell)
    (begins : invariant start) (done : items.foldlM f start = .ok last) (cell : κ) :
    read last cell = if items.any (fun item => writes item cell) then some (value cell) else read
      start cell := by
  induction items generalizing start with
  | nil => rw [← Except.ok.inj done]; rfl
  | cons item rest ih =>
      rw [List.foldlM_cons] at done
      cases first : f start item with
      | error error => rw [first] at done; cases done
      | ok middle =>
          rw [first] at done
          have tail := ih (fun acc other next member => kept acc other next (List.mem_cons_of_mem _ member))
            (fun acc other next member => each acc other next (List.mem_cons_of_mem _ member))
            (kept start item middle List.mem_cons_self begins first) done
          rw [tail, each start item middle List.mem_cons_self begins first cell, List.any_cons]
          cases writes item cell with
          | true => simp
          | false => simp

/-- A for loop that leaves, after a last change of its state, when the budget has run out. -/
def budgeted (expired : α → Bool) (leave : β → β) (f : β → α → Except ε β) : List α → β → Except ε β
  | [], state => .ok state
  | item :: rest, state =>
      if expired item then .ok (leave state)
      else match f state item with
        | .error error => .error error
        | .ok next => budgeted expired leave f rest next

/-- The invariant rule of the loop. -/
theorem budgeted_keeps {expired : α → Bool} {leave : β → β} (invariant : β → Prop) {items : List α}
    {start last : β}
    (kept : ∀ acc item next, item ∈ items → invariant acc → f acc item = .ok next → invariant next)
    (leaves : ∀ acc, invariant acc → invariant (leave acc)) (begins : invariant start)
    (done : budgeted expired leave f items start = .ok last) : invariant last := by
  induction items generalizing start with
  | nil =>
      rw [← Except.ok.inj done]
      exact begins
  | cons item rest ih =>
      rw [budgeted] at done
      split at done
      · rw [← Except.ok.inj done]
        exact leaves start begins
      · cases first : f start item with
        | error error => rw [first] at done; cases done
        | ok middle =>
            rw [first] at done
            exact ih (fun acc other next member => kept acc other next (List.mem_cons_of_mem _ member))
              (kept start item middle List.mem_cons_self begins first) done

/-- A result that leaving early spoils: it is reached exactly where the start is good
and every item is met in time and clean. -/
theorem budgeted_good_iff {expired : α → Bool} {leave : β → β} (invariant good : β → Prop)
    (clean : α → Prop) {items : List α} {start : β}
    (kept : ∀ acc item next, item ∈ items → invariant acc → f acc item = .ok next → invariant next)
    (spoils : ∀ acc, invariant acc → ¬ good (leave acc))
    (step : ∀ acc item, item ∈ items → invariant acc →
      ((∃ next, f acc item = .ok next ∧ good next) ↔ good acc ∧ clean item))
    (begins : invariant start) :
    (∃ last, budgeted expired leave f items start = .ok last ∧ good last) ↔
      good start ∧ ∀ item ∈ items, expired item = false ∧ clean item := by
  induction items generalizing start with
  | nil =>
      constructor
      · rintro ⟨last, done, fine⟩
        rw [← Except.ok.inj done] at fine
        exact ⟨fine, fun item member => (List.not_mem_nil member).elim⟩
      · rintro ⟨fine, _⟩
        exact ⟨start, rfl, fine⟩
  | cons item rest ih =>
      have tail (middle : β) (first : f start item = .ok middle) :=
        @ih middle (fun acc other next member => kept acc other next (List.mem_cons_of_mem _ member))
          (fun acc other member => step acc other (List.mem_cons_of_mem _ member))
          (kept start item middle List.mem_cons_self begins first)
      have head := step start item List.mem_cons_self begins
      rw [List.forall_mem_cons]
      by_cases late : expired item = true
      · simp only [budgeted, late, ↓reduceIte]
        constructor
        · rintro ⟨last, done, fine⟩
          rw [← Except.ok.inj done] at fine
          exact absurd fine (spoils start begins)
        · rintro ⟨_, ⟨inTime, _⟩, _⟩
          cases inTime
      · have inTime : expired item = false := Bool.eq_false_iff.mpr late
        simp only [budgeted, inTime, Bool.false_eq_true, ↓reduceIte, true_and]
        constructor
        · rintro ⟨last, done, fine⟩
          cases first : f start item with
          | error error => rw [first] at done; cases done
          | ok middle =>
              rw [first] at done
              obtain ⟨good_, others⟩ := (tail middle first).mp ⟨last, done, fine⟩
              obtain ⟨fineStart, cleanItem⟩ := head.mp ⟨middle, first, good_⟩
              exact ⟨fineStart, cleanItem, others⟩
        · rintro ⟨fine, cleanItem, others⟩
          obtain ⟨middle, first, good_⟩ := head.mpr ⟨fine, cleanItem⟩
          rw [first]
          exact (tail middle first).mpr ⟨good_, others⟩

/-- The same of a run that is there. -/
theorem budgeted_last_iff {expired : α → Bool} {leave : β → β} (invariant good : β → Prop)
    (clean : α → Prop) {items : List α} {start last : β}
    (kept : ∀ acc item next, item ∈ items → invariant acc → f acc item = .ok next → invariant next)
    (spoils : ∀ acc, invariant acc → ¬ good (leave acc))
    (step : ∀ acc item next, item ∈ items → invariant acc → f acc item = .ok next →
      (good next ↔ good acc ∧ clean item))
    (begins : invariant start) (done : budgeted expired leave f items start = .ok last) :
    good last ↔ good start ∧ ∀ item ∈ items, expired item = false ∧ clean item := by
  induction items generalizing start with
  | nil =>
      rw [← Except.ok.inj done]
      exact ⟨fun fine => ⟨fine, fun item member => (List.not_mem_nil member).elim⟩, fun both => both.1⟩
  | cons item rest ih =>
      rw [budgeted] at done
      rw [List.forall_mem_cons]
      split at done
      · next late =>
        rw [← Except.ok.inj done, late]
        constructor
        · exact fun fine => absurd fine (spoils start begins)
        · rintro ⟨_, ⟨inTime, _⟩, _⟩
          cases inTime
      · next inTime =>
        cases first : f start item with
        | error error => rw [first] at done; cases done
        | ok middle =>
            rw [first] at done
            rw [ih (fun acc other next member => kept acc other next (List.mem_cons_of_mem _ member))
              (fun acc other next member => step acc other next (List.mem_cons_of_mem _ member))
              (kept start item middle List.mem_cons_self begins first) done,
              step start item middle List.mem_cons_self begins first, Bool.eq_false_iff.mpr inTime]
            exact ⟨fun held => ⟨held.1.1, ⟨rfl, held.1.2⟩, held.2⟩,
              fun held => ⟨⟨held.1, held.2.1.2⟩, held.2.2⟩⟩

/-- The loop is the plain fold over the items before the first late one. -/
theorem budgeted_reached {expired : α → Bool} {leave : β → β} {items : List α} {start last : β}
    (done : budgeted expired leave f items start = .ok last) :
    ∃ middle, (items.takeWhile fun item => !expired item).foldlM f start = .ok middle ∧
      (last = middle ∨ last = leave middle) := by
  induction items generalizing start with
  | nil => exact ⟨start, rfl, .inl (Except.ok.inj done).symm⟩
  | cons item rest ih =>
      rw [budgeted] at done
      split at done
      · next late =>
        refine ⟨start, ?_, .inr (Except.ok.inj done).symm⟩
        rw [List.takeWhile_cons, late]
        rfl
      · next inTime =>
        cases first : f start item with
        | error error => rw [first] at done; cases done
        | ok next =>
            rw [first] at done
            obtain ⟨middle, run, ends⟩ := ih done
            refine ⟨middle, ?_, ends⟩
            rw [List.takeWhile_cons, Bool.eq_false_iff.mpr inTime, Bool.not_false, if_pos rfl,
              List.foldlM_cons, first]
            exact run

end KosSim.Library
