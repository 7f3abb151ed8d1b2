import KosSim.Library.Separated
import KosSim.Library.Spans
import Mathlib.Data.List.DropRight

/-!
Source texts: the lines of a text that are not blank, and the comments of languages like C. A text
is read one character at a time, with a look at the next one; quotes open literals, in which a
backslash covers the next character.
-/

namespace KosSim.Library

/-! Lines. -/

section Lines
variable {α : Type} [DecidableEq α] (mark : α) (space : α → Bool)

/-- The lines that are not blank, without the blanks at their ends. -/
def visible (text : List α) : List (List α) :=
  ((text.splitOn mark).map (List.rdropWhile space)).filter fun line => line ≠ []

/-- The first line loses the blanks at its start. -/
def edged : List (List α) → List (List α)
  | [] => []
  | line :: rest => line.dropWhile space :: rest

variable {mark space}

theorem visible_break (front back : List α) :
    visible mark space (front ++ mark :: back) = visible mark space front ++ visible mark space back := by
  rw [visible, List.splitOn_append_cons_self, List.map_append, List.filter_append]
  rfl

theorem visible_line {line : List α} (free : mark ∉ line) :
    visible mark space line = [line.rdropWhile space].filter fun line => line ≠ [] := by
  rw [visible, List.splitOn_eq_singleton free]
  rfl

theorem visible_snoc {c : α} (blank_ : space c = true) (text : List α) :
    visible mark space (text ++ [c]) = visible mark space text := by
  by_cases same : c = mark
  · rw [same, visible_break, visible_line List.not_mem_nil]
    exact List.append_nil _
  · -- only the last line of the text counts
    induction size : text.length using Nat.strong_induction_on generalizing text with
    | _ n ih =>
      by_cases broken : mark ∈ text
      · obtain ⟨front, back, rfl⟩ := List.append_of_mem broken
        have less : back.length < n := by
          rw [← size, List.length_append, List.length_cons]
          omega
        rw [List.append_assoc, List.cons_append, visible_break, visible_break, ih _ less back rfl]
      · have free : mark ∉ text ++ [c] := by
          rw [List.mem_append, List.mem_singleton]
          rintro (inside | last)
          · exact broken inside
          · exact same last.symm
        rw [visible_line free, visible_line broken, List.rdropWhile_concat_pos _ _ _ blank_]

theorem visible_blank_end {blanks : List α} (all : ∀ c ∈ blanks, space c = true) (text : List α) :
    visible mark space (text ++ blanks) = visible mark space text := by
  induction blanks using List.reverseRecOn with
  | nil => rw [List.append_nil]
  | append_singleton front c ih =>
      rw [← List.append_assoc, visible_snoc (all c (List.mem_append_right _ (List.mem_singleton_self c))),
        ih fun other member => all other (List.mem_append_left _ member)]

/-- Blanks at the end of a line are not seen. -/
theorem visible_blank {blanks : List α} (all : ∀ c ∈ blanks, space c = true) (front : List α)
    {rest : List α} (ends : ∀ c ∈ rest.head?, c = mark) :
    visible mark space (front ++ (blanks ++ rest)) = visible mark space (front ++ rest) := by
  cases rest with
  | nil => rw [List.append_nil, List.append_nil, visible_blank_end all]
  | cons c more =>
      rw [ends c rfl, ← List.append_assoc, visible_break, visible_break, visible_blank_end all]

omit [DecidableEq α] in
theorem rdrop_cons (c : α) (line : List α) : (c :: line).rdropWhile space =
    if line.rdropWhile space = [] then if space c then [] else [c] else c :: line.rdropWhile space := by
  rw [List.rdropWhile, List.rdropWhile, List.reverse_cons, List.dropWhile_append]
  by_cases none_ : line.reverse.dropWhile space = []
  · rw [none_, if_pos List.isEmpty_nil, List.reverse_nil, if_pos rfl]
    cases shown : space c <;> simp [shown]
  · rw [if_neg fun empty => none_ (List.isEmpty_iff.mp empty),
      if_neg fun empty => none_ (List.reverse_eq_nil_iff.mp empty), List.reverse_append]
    rfl

theorem edged_front {c : α} (blank : space c = true) (text : List α) :
    edged space (visible mark space (c :: text)) = edged space (visible mark space text) := by
  by_cases same : c = mark
  · have parts : visible mark space (mark :: text) = visible mark space [] ++ visible mark space text :=
      visible_break [] text
    rw [same, parts, visible_line List.not_mem_nil]
    rfl
  · obtain ⟨first, others, split⟩ := List.exists_cons_of_ne_nil (List.splitOn_ne_nil mark text)
    rw [visible, visible, List.splitOn_cons_eq_if_modifyHead,
      if_neg fun equal => same (beq_iff_eq.mp equal), split, List.modifyHead_cons, List.map_cons,
      List.map_cons, rdrop_cons]
    by_cases none_ : first.rdropWhile space = []
    · rw [if_pos none_, if_pos blank, none_]
    · rw [if_neg none_, List.filter_cons_of_pos (by simp),
        List.filter_cons_of_pos (by simpa using none_), edged, edged,
        List.dropWhile_cons_of_pos blank]

theorem edged_blank_front {blanks : List α} (all : ∀ c ∈ blanks, space c = true) (text : List α) :
    edged space (visible mark space (blanks ++ text)) = edged space (visible mark space text) := by
  induction blanks with
  | nil => rfl
  | cons c rest ih =>
      rw [List.cons_append, edged_front (all c List.mem_cons_self),
        ih fun other member => all other (List.mem_cons_of_mem _ member)]

theorem edged_strip (text : List α) :
    edged space (visible mark space ((text.dropWhile space).rdropWhile space)) =
      edged space (visible mark space text) := by
  have front : text.takeWhile space ++ text.dropWhile space = text := List.takeWhile_append_dropWhile
  have back : (text.dropWhile space).rdropWhile space ++ (text.dropWhile space).rtakeWhile space =
      text.dropWhile space :=
    List.rdropWhile_append_rtakeWhile
  have tail : ∀ c ∈ (text.dropWhile space).rtakeWhile space, space c = true :=
    fun c member => List.mem_rtakeWhile_imp member
  have head : ∀ c ∈ text.takeWhile space, space c = true := fun c member => List.mem_takeWhile_imp member
  calc edged space (visible mark space ((text.dropWhile space).rdropWhile space))
    _ = edged space (visible mark space (text.dropWhile space)) := by
        conv => rhs; rw [← back, visible_blank_end tail]
    _ = edged space (visible mark space text) := by
        conv => rhs; rw [← front, edged_blank_front head]

/-- The lines of a text that is put together from lines. -/
theorem visible_joined {lines : List (List α)} (free : ∀ line ∈ lines, mark ∉ line) :
    visible mark space ([mark].intercalate lines) =
      (lines.map (List.rdropWhile space)).filter fun line => line ≠ [] := by
  by_cases none_ : lines = []
  · rw [none_, List.intercalate_nil, visible_line List.not_mem_nil]
    rfl
  · rw [visible, List.splitOn_intercalate mark free none_]

end Lines

/-! Comments. -/

namespace SourceText

inductive State where
  | code
  | slashes
  | line
  | opening
  | block
  | closing
  | literal (quote : Char)
  | escape (quote : Char)
  deriving DecidableEq

def isQuote (c : Char) : Bool := c = '\'' || c = '"' || c = '\x60'

/-- What a character does, before the next one, and whether it stands outside of comments. A
language may do without block comments. -/
def next (blocks : Bool) (state : State) (c : Char) (ahead : Option Char) : State × Bool :=
  match state with
  | .code =>
      if c = '/' ∧ ahead = some '/' then (.slashes, false)
      else if blocks ∧ c = '/' ∧ ahead = some '*' then (.opening, false)
      else (if isQuote c then .literal c else .code, true)
  | .slashes => (.line, false)
  | .line => if c = '\n' then (.code, true) else (.line, false)
  | .opening => (.block, false)
  | .block => (if c = '*' ∧ ahead = some '/' then .closing else .block, false)
  | .closing => (.code, false)
  | .literal quote =>
      (if c = '\\' then .escape quote else if c = quote then .code else .literal quote, true)
  | .escape quote => (.literal quote, true)

/-- The text without its comments. -/
def kept (blocks : Bool) : State → List Char → List Char
  | _, [] => []
  | state, c :: rest =>
      let moved := next blocks state c rest.head?
      if moved.2 then c :: kept blocks moved.1 rest else kept blocks moved.1 rest

def ending (blocks : Bool) : State → List Char → State
  | state, [] => state
  | state, c :: rest => ending blocks (next blocks state c rest.head?).1 rest

/-- At each character that is read in a state, with the text from there on. -/
def Always (blocks : Bool) (p : State → List Char → Prop) : State → List Char → Prop
  | _, [] => True
  | state, c :: rest => p state (c :: rest) ∧ Always blocks p (next blocks state c rest.head?).1 rest

/-- A stretch of the text is read, and these of its characters are kept. -/
structure Leads (blocks : Bool) (state : State) (text out : List Char) (after : State)
    (rest : List Char) : Prop where
  keeps : kept blocks state text = out ++ kept blocks after rest
  ends : ending blocks state text = ending blocks after rest
  always : ∀ p, Always blocks p state text → Always blocks p after rest

instance always_decidable (blocks : Bool) (p : State → List Char → Prop)
    [∀ state text, Decidable (p state text)] :
    ∀ state text, Decidable (Always blocks p state text)
  | _, [] => isTrue trivial
  | state, c :: rest =>
      have := always_decidable blocks p (next blocks state c rest.head?).1 rest
      inferInstanceAs (Decidable (p state (c :: rest) ∧
        Always blocks p (next blocks state c rest.head?).1 rest))

section Walks
variable {blocks : Bool}

theorem leads_none (state : State) (text : List Char) : Leads blocks state text [] state text :=
  ⟨rfl, rfl, fun _ => id⟩

theorem leads_trans {state middle last : State} {text rest back out more : List Char}
    (one : Leads blocks state text out middle rest) (other : Leads blocks middle rest more last back) :
    Leads blocks state text (out ++ more) last back :=
  ⟨by rw [one.keeps, other.keeps, List.append_assoc], one.ends.trans other.ends,
    fun p always => other.always p (one.always p always)⟩

theorem leads_kept {state after : State} {c : Char} {rest : List Char}
    (moved : next blocks state c rest.head? = (after, true)) :
    Leads blocks state (c :: rest) [c] after rest := by
  constructor
  · rw [kept, moved]
    rfl
  · rw [ending, moved]
  · intro p always
    rw [Always, moved] at always
    exact always.2

theorem leads_dropped {state after : State} {c : Char} {rest : List Char}
    (moved : next blocks state c rest.head? = (after, false)) :
    Leads blocks state (c :: rest) [] after rest := by
  constructor
  · rw [kept, moved]
    rfl
  · rw [ending, moved]
  · intro p always
    rw [Always, moved] at always
    exact always.2

theorem leads_line {front : List Char} (free : '\n' ∉ front) (rest : List Char) :
    Leads blocks .line (front ++ rest) [] .line rest := by
  induction front with
  | nil => exact leads_none .line rest
  | cons c more ih =>
      have other : c ≠ '\n' := fun same => free (same ▸ List.mem_cons_self)
      have moved : next blocks .line c (more ++ rest).head? = (.line, false) := if_neg other
      exact leads_trans (leads_dropped moved) (ih fun member => free (List.mem_cons_of_mem _ member))

/-- Neither a slash nor a quote. -/
def Inert (c : Char) : Prop := c ≠ '/' ∧ isQuote c = false

theorem leads_inert {front : List Char} (inert : ∀ c ∈ front, Inert c) (rest : List Char) :
    Leads blocks .code (front ++ rest) front .code rest := by
  induction front with
  | nil => exact leads_none .code rest
  | cons c more ih =>
      obtain ⟨noSlash, noQuote⟩ := inert c List.mem_cons_self
      have moved : next blocks .code c (more ++ rest).head? = (.code, true) := by
        rw [next, if_neg fun both => noSlash both.1, if_neg fun both => noSlash both.2.1, noQuote]
        rfl
      exact leads_trans (leads_kept moved)
        (ih fun other member => inert other (List.mem_cons_of_mem _ member))

theorem leads_slashes (rest : List Char) : Leads blocks .code ('/' :: '/' :: rest) [] .line rest :=
  leads_trans (leads_dropped rfl) (leads_dropped rfl)

def IsComment (space : Char → Bool) (line : List Char) : Prop := ['/', '/'] <+: line.dropWhile space

instance (space : Char → Bool) : DecidablePred (IsComment space) :=
  fun line => inferInstanceAs (Decidable (['/', '/'] <+: line.dropWhile space))

instance blank_decidable (space : Char → Bool) (line : List Char) :
    Decidable (∀ c ∈ line, space c = true) :=
  decidable_of_iff (line.all space = true) List.all_eq_true

/-- Comments on their own and blank lines, and a comment at the end. -/
structure CommentLines (space : Char → Bool) (lines : List (List Char)) : Prop where
  each : ∀ line ∈ lines, IsComment space line ∨ ∀ c ∈ line, space c = true
  last : ∀ line ∈ lines.getLast?, IsComment space line

instance (space : Char → Bool) (lines : List (List Char)) : Decidable (CommentLines space lines) :=
  decidable_of_iff ((∀ line ∈ lines, IsComment space line ∨ ∀ c ∈ line, space c = true) ∧
    ∀ line ∈ lines.getLast?, IsComment space line) ⟨fun both => ⟨both.1, both.2⟩,
    fun lines => ⟨lines.each, lines.last⟩⟩

section Blanks
variable (blocks) {space : Char → Bool} (inert : ∀ c, space c = true → Inert c)
include inert

/-- Up to its end a comment on its own is read as blanks. -/
theorem leads_comment {line : List Char} (comment : IsComment space line) (free : '\n' ∉ line)
    (rest : List Char) :
    Leads blocks .code (line ++ rest) (line.takeWhile space) .line rest := by
  obtain ⟨more, whole⟩ := comment
  have parts : line.takeWhile space ++ (['/', '/'] ++ more) = line := by
    rw [whole, List.takeWhile_append_dropWhile]
  have within : '\n' ∉ more := fun member =>
    free (parts ▸ List.mem_append_right _ (List.mem_append_right _ member))
  have blanks : ∀ c ∈ line.takeWhile space, Inert c :=
    fun c member => inert c (List.mem_takeWhile_imp member)
  have opening : Leads blocks .code (line.takeWhile space ++ '/' :: '/' :: (more ++ rest))
      (line.takeWhile space) .code ('/' :: '/' :: (more ++ rest)) := leads_inert blanks _
  have leads := leads_trans opening (leads_trans (leads_slashes (more ++ rest)) (leads_line within rest))
  have stream : line ++ rest = line.takeWhile space ++ '/' :: '/' :: (more ++ rest) := by
    conv => lhs; rw [← parts]
    simp only [List.append_assoc, List.cons_append, List.nil_append]
  rw [List.append_nil, List.append_nil] at leads
  rw [stream]
  exact leads

variable (blank : space '\n' = true)
include blank

theorem leads_comment_lines {lines : List (List Char)} (filled : lines ≠ [])
    (free : ∀ line ∈ lines, '\n' ∉ line) (comments : CommentLines space lines) (rest : List Char) :
    ∃ blanks, (∀ c ∈ blanks, space c = true) ∧
      Leads blocks .code (['\n'].intercalate lines ++ rest) blanks .line rest := by
  induction lines with
  | nil => exact absurd rfl filled
  | cons line others ih =>
      have here := free line List.mem_cons_self
      have start : ∀ c ∈ line.takeWhile space, space c = true :=
        fun c member => List.mem_takeWhile_imp member
      cases others with
      | nil =>
          rw [List.intercalate_singleton]
          exact ⟨_, start, leads_comment blocks inert (comments.last line rfl) here rest⟩
      | cons second more =>
          have later : CommentLines space (second :: more) :=
            ⟨fun other member => comments.each other (List.mem_cons_of_mem _ member), fun other member =>
              comments.last other (by rw [List.getLast?_cons_cons]; exact member)⟩
          obtain ⟨blanks, all, leads⟩ :=
            ih (List.cons_ne_nil _ _) (fun other member => free other (List.mem_cons_of_mem _ member)) later
          rw [List.intercalate_cons_cons, List.append_assoc, List.append_assoc]
          rcases comments.each line List.mem_cons_self with comment | spaces
          · have broken (ahead : Option Char) : next blocks .line '\n' ahead = (.code, true) := rfl
            refine ⟨line.takeWhile space ++ '\n' :: blanks, ?_, ?_⟩
            · intro c member
              rcases List.mem_append.mp member with front | back
              · exact start c front
              · rcases List.mem_cons.mp back with rfl | inside
                · exact blank
                · exact all c inside
            · exact leads_trans (leads_comment blocks inert comment here _)
                (leads_trans (leads_kept (broken _)) leads)
          · have kept_ : ∀ c ∈ line ++ ['\n'], space c = true := by
              intro c member
              rcases List.mem_append.mp member with inside | last
              · exact spaces c inside
              · rw [List.mem_singleton.mp last]
                exact blank
            refine ⟨line ++ ['\n'] ++ blanks,
              fun c member => (List.mem_append.mp member).elim (kept_ c) (all c), ?_⟩
            rw [← List.append_assoc]
            exact leads_trans (leads_inert (fun c member => inert c (kept_ c member)) _) leads

/-- A span that starts in a line comment and reaches only comments is read as blanks. -/
theorem leads_span {opener closer text inner after : List Char} (openerLine : '\n' ∉ opener)
    (closerLine : '\n' ∉ closer) (found : spanAt opener closer text = some (inner, after))
    (comments : CommentLines space (inner.splitOn '\n').tail) :
    ∃ blanks, (∀ c ∈ blanks, space c = true) ∧ Leads blocks .line text blanks .line after := by
  obtain ⟨first, lines, split⟩ := List.exists_cons_of_ne_nil (List.splitOn_ne_nil '\n' inner)
  have whole : ['\n'].intercalate (first :: lines) = inner := by rw [← split, List.intercalate_splitOn]
  have free : ∀ line ∈ first :: lines, '\n' ∉ line := by
    rw [← split]
    exact split_free inner
  rw [split, List.tail_cons] at comments
  rw [span_parts found, ← whole]
  have one (rest : List Char) : Leads blocks .line (first ++ rest) [] .line rest :=
    leads_line (free first List.mem_cons_self) rest
  cases lines with
  | nil =>
      rw [List.intercalate_singleton]
      exact ⟨[], nofun, leads_trans (leads_line openerLine _)
        (leads_trans (one _) (leads_line closerLine after))⟩
  | cons second others =>
      obtain ⟨blanks, all, leads⟩ := leads_comment_lines blocks inert blank (List.cons_ne_nil _ _)
        (fun line member => free line (List.mem_cons_of_mem _ member)) comments (closer ++ after)
      have broken (ahead : Option Char) : next blocks .line '\n' ahead = (.code, true) := rfl
      have back := leads_trans (leads_kept (broken _)) (leads_trans leads (leads_line closerLine after))
      rw [List.append_nil] at back
      refine ⟨'\n' :: blanks, List.forall_mem_cons.mpr ⟨blank, all⟩, ?_⟩
      rw [List.intercalate_cons_cons, List.append_assoc, List.append_assoc]
      exact leads_trans (leads_line openerLine _) (leads_trans (one _) back)

end Blanks

/-- Block comments are closed. -/
def Closed : State → Prop
  | .opening | .block | .closing => False
  | .code | .slashes | .line | .literal _ | .escape _ => True

theorem leads_block {text : List Char} (closed : Closed (ending true .block text)) :
    ∃ inner after, cutAt ['*', '/'] text = some (inner, after) ∧ Leads true .block text [] .code after := by
  induction text with
  | nil => exact closed.elim
  | cons c rest ih =>
      by_cases star : c = '*' ∧ rest.head? = some '/'
      · obtain ⟨rfl, slash⟩ := star
        obtain ⟨after, rfl⟩ : ∃ after, rest = '/' :: after := by
          cases rest with
          | nil => cases slash
          | cons d after => exact ⟨after, by rw [Option.some.inj slash]⟩
        exact ⟨[], after, cut_here ['*', '/'] after, leads_trans (leads_dropped rfl) (leads_dropped rfl)⟩
      · have moved : next true .block c rest.head? = (.block, false) := by rw [next, if_neg star]
        have step := leads_dropped moved
        rw [step.ends] at closed
        obtain ⟨inner, after, found, leads⟩ := ih closed
        have other : ¬['*', '/'] <+: c :: rest := by
          rintro ⟨more, whole⟩
          obtain ⟨rfl, rfl⟩ := List.cons.inj whole
          exact star ⟨rfl, rfl⟩
        exact ⟨c :: inner, after, by rw [cut_later other, found]; rfl, leads_trans step leads⟩

theorem closed_next {state : State} (closed : Closed state) (c : Char) (ahead : Option Char) :
    Closed (next false state c ahead).1 := by
  cases state with
  | code =>
      rw [next, if_neg fun both : false = true ∧ _ => Bool.noConfusion both.1]
      split
      · trivial
      · dsimp only
        split <;> trivial
  | slashes => trivial
  | line =>
      rw [next]
      split <;> trivial
  | literal quote =>
      rw [next]
      dsimp only
      split
      · trivial
      · split <;> trivial
  | escape quote => trivial
  | opening => exact closed.elim
  | block => exact closed.elim
  | closing => exact closed.elim

theorem ending_closed {state : State} (closed : Closed state) (text : List Char) :
    Closed (ending false state text) := by
  induction text generalizing state with
  | nil => exact closed
  | cons c rest ih => exact ih (closed_next closed c rest.head?)

/-! Taking out spans. -/

/-- The spans are block comments where the language has them, and no span's mark reaches over a
line's end. -/
structure Marks (blocks : Bool) (opener closer : List Char) : Prop where
  filled : opener ≠ []
  openerLine : '\n' ∉ opener
  closerLine : '\n' ∉ closer
  comments : blocks = true → opener = ['/', '*'] ∧ closer = ['*', '/']

/-- Where a span with this inside may start: where a block comment does, or in a line comment if
only comments and blanks are on the further lines up to its end. -/
def Allowed (blocks : Bool) (space : Char → Bool) (inner : List Char) : State → Prop
  | .line => CommentLines space (inner.splitOn '\n').tail
  | .code | .opening | .block | .closing => blocks = true
  | .slashes | .literal _ | .escape _ => False

instance (blocks : Bool) (space : Char → Bool) (inner : List Char) :
    DecidablePred (Allowed blocks space inner)
  | .line => inferInstanceAs (Decidable (CommentLines space (inner.splitOn '\n').tail))
  | .code | .opening | .block | .closing => inferInstanceAs (Decidable (blocks = true))
  | .slashes | .literal _ | .escape _ => inferInstanceAs (Decidable False)

def Spared (blocks : Bool) (space : Char → Bool) (opener closer : List Char) (state : State)
    (text : List Char) : Prop :=
  ∀ parts ∈ spanAt opener closer text, Allowed blocks space parts.1 state

instance (blocks : Bool) (space : Char → Bool) (opener closer : List Char) (state : State)
    (text : List Char) :
    Decidable (Spared blocks space opener closer state text) :=
  inferInstanceAs (Decidable (∀ parts ∈ spanAt opener closer text, Allowed blocks space parts.1 state))

/-- Not inside of a mark or a block comment. -/
def Outside : State → Prop
  | .code | .line | .literal _ | .escape _ => True
  | .slashes | .opening | .block | .closing => False

section Spans
variable {space : Char → Bool} {opener closer : List Char}

theorem spared_code (marks : Marks blocks opener closer) {c : Char} {rest : List Char}
    (spared : Spared blocks space opener closer .code (c :: rest))
    (other : blocks = true → ¬['/', '*'] <+: c :: rest) :
    spanAt opener closer (c :: rest) = none := by
  by_contra found
  obtain ⟨⟨inner, after⟩, found⟩ := Option.ne_none_iff_exists'.mp found
  have comment : blocks = true := spared (inner, after) found
  have whole := span_parts found
  rw [(marks.comments comment).1] at whole
  exact other comment ⟨_, whole.symm⟩

/-- What stands before the next character is read the same when the spans are gone. -/
theorem spared_ahead (marks : Marks blocks opener closer) {rest : List Char}
    (always : Always blocks (Spared blocks space opener closer) .code rest)
    (other : rest.head? ≠ some '/') :
    (dropSpans opener closer 0 rest).head? ≠ some '/' := by
  cases rest with
  | nil => exact nofun
  | cons d more =>
      have none_ := spared_code marks always.1 fun _ ⟨_, whole⟩ => other (by rw [← whole]; rfl)
      rw [drop_spans_kept none_]
      exact other

theorem line_head (text : List Char) : ∀ c ∈ (kept blocks .line text).head?, c = '\n' := by
  induction text with
  | nil => exact nofun
  | cons c rest ih =>
      by_cases same : c = '\n'
      · rw [same]
        intro first here
        exact (Option.some.inj here).symm
      · have moved : next blocks .line c rest.head? = (.line, false) := if_neg same
        rw [(leads_dropped moved).keeps]
        exact ih

/-- A text whose spans may be taken out. -/
structure Fine (blocks : Bool) (space : Char → Bool) (opener closer : List Char) (state : State)
    (text : List Char) : Prop where
  outside : Outside state
  always : Always blocks (Spared blocks space opener closer) state text
  closed : Closed (ending blocks state text)

/-- The visible lines are the same with the spans taken out, whatever stands before. -/
def Same (blocks : Bool) (space : Char → Bool) (opener closer : List Char) (state : State)
    (text : List Char) : Prop :=
  ∀ front, visible '\n' space (front ++ kept false state (dropSpans opener closer 0 text)) =
    visible '\n' space (front ++ kept blocks state text)

theorem fine_leads {state after : State} {text out rest : List Char}
    (leads : Leads blocks state text out after rest) (outside : Outside after)
    (fine : Fine blocks space opener closer state text) :
    Fine blocks space opener closer after rest :=
  ⟨outside, leads.always _ fine.always, leads.ends ▸ fine.closed⟩

theorem same_kept {state after : State} {c : Char} {rest : List Char}
    (none_ : spanAt opener closer (c :: rest) = none)
    (moved : next blocks state c rest.head? = (after, true))
    (alike : next false state c (dropSpans opener closer 0 rest).head? = (after, true))
    (later : Same blocks space opener closer after rest) :
    Same blocks space opener closer state (c :: rest) := by
  intro front
  rw [drop_spans_kept none_, (leads_kept alike).keeps, (leads_kept moved).keeps, ← List.append_assoc,
    ← List.append_assoc, later]

section Steps
variable (marks : Marks blocks opener closer) {c : Char} {rest : List Char}
  (ih : ∀ {state : State} {text : List Char}, text.length < (c :: rest).length →
    Fine blocks space opener closer state text → Same blocks space opener closer state text)
include marks ih

theorem same_line_comment {more : List Char} (parts : c :: rest = '/' :: '/' :: more)
    (fine : Fine blocks space opener closer .code (c :: rest)) :
    Same blocks space opener closer .code (c :: rest) := by
  rw [parts] at fine ih ⊢
  have noComment : ¬['/', '*'] <+: '/' :: '/' :: more := by
    rintro ⟨_, whole⟩
    cases whole
  have one := spared_code marks fine.always.1 fun _ => noComment
  have two : spanAt opener closer ('/' :: more) = none :=
    Option.eq_none_iff_forall_not_mem.mpr fun parts found => fine.always.2.1 parts found
  have leads : Leads blocks .code ('/' :: '/' :: more) [] .line more := leads_slashes more
  have later := ih (by simp only [List.length_cons]; omega) (fine_leads leads trivial fine)
  intro front
  rw [drop_spans_kept one, drop_spans_kept two, (leads_slashes _).keeps, leads.keeps]
  exact later front

theorem same_block_comment {more : List Char} (comment : blocks = true)
    (parts : c :: rest = '/' :: '*' :: more)
    (fine : Fine blocks space opener closer .code (c :: rest)) :
    Same blocks space opener closer .code (c :: rest) := by
  subst comment
  obtain ⟨rfl, rfl⟩ := marks.comments rfl
  rw [parts] at fine ih ⊢
  have enter : Leads true .code ('/' :: '*' :: more) [] .block more :=
    leads_trans (leads_dropped rfl) (leads_dropped rfl)
  obtain ⟨inner, after, cut, block⟩ := leads_block (enter.ends ▸ fine.closed)
  have leads := leads_trans enter block
  have found : spanAt ['/', '*'] ['*', '/'] ('/' :: '*' :: more) = some (inner, after) := cut
  have size := congrArg List.length (cut_parts cut)
  rw [List.length_append, List.length_append] at size
  have later := ih (by simp only [List.length_cons]; omega) (fine_leads leads trivial fine)
  intro front
  rw [drop_spans_found marks.filled found, leads.keeps]
  exact later front

theorem same_code (fine : Fine blocks space opener closer .code (c :: rest)) :
    Same blocks space opener closer .code (c :: rest) := by
  by_cases slashes : c = '/' ∧ rest.head? = some '/'
  · obtain ⟨more, parts⟩ := List.head?_eq_some_iff.mp slashes.2
    exact same_line_comment marks ih (by rw [slashes.1, parts]) fine
  by_cases star : blocks = true ∧ c = '/' ∧ rest.head? = some '*'
  · obtain ⟨more, parts⟩ := List.head?_eq_some_iff.mp star.2.2
    exact same_block_comment marks ih star.1 (by rw [star.2.1, parts]) fine
  · have noComment : blocks = true → ¬['/', '*'] <+: c :: rest := by
      rintro comment ⟨more, whole⟩
      obtain ⟨rfl, rfl⟩ := List.cons.inj whole
      exact star ⟨comment, rfl, rfl⟩
    have moved : next blocks .code c rest.head? = (if isQuote c then .literal c else .code, true) := by
      rw [next, if_neg slashes, if_neg star]
    have good : Outside (if isQuote c then .literal c else .code) := by
      split <;> trivial
    have later := fine_leads (leads_kept moved) good fine
    -- The character behind a slash is the same as before.
    have apart : ¬(c = '/' ∧ (dropSpans opener closer 0 rest).head? = some '/') := by
      rintro ⟨rfl, slash⟩
      exact spared_ahead marks later.always (fun same => slashes ⟨rfl, same⟩) slash
    refine same_kept (spared_code marks fine.always.1 noComment) moved ?_ (ih (Nat.lt_succ_self _) later)
    rw [next, if_neg apart, if_neg fun both => Bool.noConfusion both.1]

theorem same_line (inert : ∀ c, space c = true → Inert c) (blank : space '\n' = true)
    (fine : Fine blocks space opener closer .line (c :: rest)) :
    Same blocks space opener closer .line (c :: rest) := by
  cases found : spanAt opener closer (c :: rest) with
  | some parts =>
      obtain ⟨inner, after⟩ := parts
      obtain ⟨blanks, all, leads⟩ := leads_span blocks inert blank marks.openerLine marks.closerLine found
        (fine.always.1 (inner, after) found)
      have less : after.length < (c :: rest).length := by
        have filled := List.length_pos_of_ne_nil marks.filled
        rw [span_parts found, List.length_append, List.length_append, List.length_append]
        omega
      have later := ih less (fine_leads leads trivial fine)
      intro front
      rw [drop_spans_found marks.filled found, leads.keeps, ← visible_blank all front (line_head _),
        ← List.append_assoc, later, List.append_assoc]
  | none =>
      by_cases same : c = '\n'
      · have moved (blocks : Bool) (ahead : Option Char) : next blocks .line c ahead = (.code, true) :=
          if_pos same
        exact same_kept found (moved blocks _) (moved false _)
          (ih (Nat.lt_succ_self _) (fine_leads (leads_kept (moved blocks _)) trivial fine))
      · have moved (blocks : Bool) (ahead : Option Char) : next blocks .line c ahead = (.line, false) :=
          if_neg same
        have leads := leads_dropped (moved blocks rest.head?)
        have later := ih (Nat.lt_succ_self _) (fine_leads leads trivial fine)
        intro front
        rw [drop_spans_kept found, (leads_dropped (moved false _)).keeps, leads.keeps]
        exact later front

omit marks in
theorem same_literal {state after : State} (apart : ∀ inner, ¬Allowed blocks space inner state)
    (moved : ∀ blocks ahead, next blocks state c ahead = (after, true)) (good : Outside after)
    (fine : Fine blocks space opener closer state (c :: rest)) :
    Same blocks space opener closer state (c :: rest) := by
  have none_ : spanAt opener closer (c :: rest) = none :=
    Option.eq_none_iff_forall_not_mem.mpr fun parts found => apart _ (fine.always.1 parts found)
  exact same_kept none_ (moved blocks _) (moved false _)
    (ih (Nat.lt_succ_self _) (fine_leads (leads_kept (moved blocks _)) good fine))

end Steps

theorem fine_same (inert : ∀ c, space c = true → Inert c) (blank : space '\n' = true)
    (marks : Marks blocks opener closer) {state : State} {text : List Char}
    (fine : Fine blocks space opener closer state text) :
    Same blocks space opener closer state text := by
  induction size : text.length using Nat.strong_induction_on generalizing text state with
  | _ n ih =>
    cases text with
    | nil => exact fun _ => rfl
    | cons c rest =>
        have later {state : State} {text : List Char} (less : text.length < (c :: rest).length)
            (fine : Fine blocks space opener closer state text) :
            Same blocks space opener closer state text :=
          ih _ (size ▸ less) fine rfl
        cases state with
        | code => exact same_code marks later fine
        | line => exact same_line marks later inert blank fine
        | literal quote =>
            refine same_literal later (fun _ => id) (fun _ _ => rfl) ?_ fine
            split
            · trivial
            · split <;> trivial
        | escape quote =>
            exact same_literal later (fun _ => id) (fun _ _ => rfl)
              (show Outside (.literal quote) from trivial) fine
        | slashes => exact fine.outside.elim
        | opening => exact fine.outside.elim
        | block => exact fine.outside.elim
        | closing => exact fine.outside.elim

end Spans

end Walks
end SourceText

end KosSim.Library
