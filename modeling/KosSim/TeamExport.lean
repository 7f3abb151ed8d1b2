import KosSim.FlagSubmit
import KosSim.Library.SourceText

/-!
export_team_challenges.py: the comments of the sources that the teams get. Block comments go by a
substitution over the whole text, line comments line by line, and a line is read as if no literal
reached into it.
-/

namespace KosSim.TeamExport
open Library Library.SourceText
open FlagSubmit (isSpace strip)

/-! The source. -/

def rstrip (text : List Char) : List Char := text.rdropWhile isSpace

def lstrip (text : List Char) : List Char := text.dropWhile isSpace

/-- str.splitlines ends a line at each of these. -/
def isBoundary (c : Char) : Bool :=
  let n := c.toNat
  (10 ≤ n && n ≤ 13) || (28 ≤ n && n ≤ 30) || n = 0x85 || n = 0x2028 || n = 0x2029

def splitlines : List Char → List (List Char)
  | [] => []
  | '\r' :: '\n' :: rest => [] :: splitlines rest
  | c :: rest =>
      if isBoundary c then [] :: splitlines rest
      else
        match splitlines rest with
        | [] => [[c]]
        | line :: more => (c :: line) :: more

/-- The loop of strip_slash_line_comment, which stops before the last character: what stands before
the comment, if it finds one. -/
def slashLoop : Option Char → Bool → List Char → Option (List Char)
  | quote, escaped, ch :: nxt :: rest =>
      if escaped then (slashLoop quote false (nxt :: rest)).map (ch :: ·)
      else if ch = '\\' ∧ quote ≠ none then (slashLoop quote true (nxt :: rest)).map (ch :: ·)
      else if isQuote ch then
        (slashLoop (if quote = some ch then none else if quote = none then some ch else quote) false
          (nxt :: rest)).map (ch :: ·)
      else if ch = '/' ∧ nxt = '/' ∧ quote = none then some []
      else (slashLoop quote false (nxt :: rest)).map (ch :: ·)
  | _, _, _ => none

def stripSlashLineComment (line : List Char) : List Char :=
  match slashLoop none false line with
  | some front => rstrip front
  | none => line

def blockOpener : List Char := ['/', '*']
def blockCloser : List Char := ['*', '/']
def htmlOpener : List Char := ['<', '!', '-', '-']
def htmlCloser : List Char := ['-', '-', '>']

/-- The two substitutions at the start of strip_comments. -/
def subComments (text : List Char) : List Char :=
  dropSpans htmlOpener htmlCloser 0 (dropSpans blockOpener blockCloser 0 text)

def slashSuffixes : List String := [".rs", ".cpp", ".hpp", ".ts", ".go", ".js", ".css"]

/-- One round of the loop over the lines; none where the line is left out. -/
def stripLine (suffix name : String) (line : List Char) : Option (List Char) :=
  let line := if suffix ∈ slashSuffixes then stripSlashLineComment line else line
  let stripped := lstrip line
  if ['/', '/'].isPrefixOf stripped then none
  else if suffix ∈ [".ex", ".exs"] ∧ stripped.head? = some '#' then none
  else if name = "Dockerfile" ∧ stripped.head? = some '#' then none
  else some (rstrip line)

def stripComments (text : List Char) (suffix name : String) : List Char :=
  strip (['\n'].intercalate ((splitlines (subComments text)).filterMap (stripLine suffix name))) ++ ['\n']

/-! What is kept of a text. -/

/-- Up to trailing white space of lines, blank lines, and blank edges. -/
def normalise (text : List Char) : List (List Char) := edged isSpace (visible '\n' isSpace text)

/-- The text without its comments. -/
def withoutComments (text : List Char) : List Char := kept true .code text

def quoteOf : State → Option Char
  | .literal quote => some quote
  | _ => none

/-- The lines, each with the state in which it starts. -/
def lineStarts : State → List (List Char) → List (State × List Char)
  | _, [] => []
  | state, line :: rest => (state, line) :: lineStarts (ending false state (line ++ ['\n'])) rest

/-- No literal and no block comment is open at the end. -/
def SourceEnds (text : List Char) : Prop := ending true .code text = .code ∨ ending true .code text = .line

instance (text : List Char) : Decidable (SourceEnds text) :=
  inferInstanceAs (Decidable (ending true .code text = .code ∨ ending true .code text = .line))

/-- Behind another line boundary there are only blanks up to the line feed. -/
def lineEnds : List Char → Bool
  | [] => true
  | c :: rest =>
      (!isBoundary c || c = '\n' || (rest.takeWhile fun d => decide (d ≠ '\n')).all isSpace) &&
        lineEnds rest

/-- What the two substitutions take out of the text is comments, and its lines end with line feeds. -/
structure Spaced (text : List Char) : Prop where
  /-- A /* that has a */ behind it starts a block comment, or stands in a line comment and reaches
  only comments. -/
  blocks : Always true (Spared true isSpace blockOpener blockCloser) .code text
  html : Always false (Spared false isSpace htmlOpener htmlCloser) .code
    (dropSpans blockOpener blockCloser 0 text)
  lines : lineEnds (subComments text) = true

/-- A line that starts in a literal shows the same comment when it is read from outside of the literal. -/
def ReadAlike (start : State × List Char) : Prop :=
  slashLoop (quoteOf start.1) false start.2 = slashLoop none false start.2

instance : DecidablePred ReadAlike := fun start =>
  inferInstanceAs (Decidable (slashLoop (quoteOf start.1) false start.2 = slashLoop none false start.2))

def Alike (text : List Char) : Prop :=
  ∀ start ∈ lineStarts .code ((subComments text).splitOn '\n'), ReadAlike start

instance (text : List Char) : Decidable (Alike text) :=
  inferInstanceAs (Decidable (∀ start ∈ lineStarts .code ((subComments text).splitOn '\n'),
    ReadAlike start))

/-! One line. -/

/-- What a character that starts no comment does to the loop's variables. -/
def move (quote : Option Char) (escaped : Bool) (ch : Char) : Option Char × Bool :=
  if escaped then (quote, false)
  else if ch = '\\' ∧ quote ≠ none then (quote, true)
  else if isQuote ch then (if quote = some ch then none else if quote = none then some ch else quote, false)
  else (quote, false)

def stateOf : Option Char → Bool → State
  | none, _ => .code
  | some quote, false => .literal quote
  | some quote, true => .escape quote

structure Valid (quote : Option Char) (escaped : Bool) : Prop where
  quotes : ∀ c, quote = some c → isQuote c = true
  inside : quote = none → escaped = false

theorem slash_loop_step (quote : Option Char) (escaped : Bool) (ch nxt : Char) (rest : List Char) :
    slashLoop quote escaped (ch :: nxt :: rest) =
      if escaped = false ∧ ch = '/' ∧ nxt = '/' ∧ quote = none then some []
      else (slashLoop (move quote escaped ch).1 (move quote escaped ch).2 (nxt :: rest)).map (ch :: ·) := by
  rw [slashLoop, move]
  cases escaped with
  | true => rw [if_pos rfl, if_pos rfl, if_neg fun all => Bool.noConfusion all.1]
  | false =>
      rw [if_neg Bool.false_ne_true, if_neg Bool.false_ne_true]
      by_cases cover : ch = '\\' ∧ quote ≠ none
      · have other : ¬(false = false ∧ ch = '/' ∧ nxt = '/' ∧ quote = none) := fun all => cover.2 all.2.2.2
        rw [if_pos cover, if_pos cover, if_neg other]
      · rw [if_neg cover, if_neg cover]
        by_cases mark : isQuote ch = true
        · have other : ¬(false = false ∧ ch = '/' ∧ nxt = '/' ∧ quote = none) := by
            rintro ⟨-, rfl, -⟩
            exact absurd mark (by decide)
          rw [if_pos mark, if_pos mark, if_neg other]
        · rw [if_neg mark, if_neg mark]
          by_cases slashes : ch = '/' ∧ nxt = '/' ∧ quote = none
          · rw [if_pos slashes, if_pos ⟨rfl, slashes⟩]
          · rw [if_neg slashes, if_neg fun all => slashes all.2]

theorem move_valid {quote : Option Char} {escaped : Bool} (valid : Valid quote escaped) (ch : Char) :
    Valid (move quote escaped ch).1 (move quote escaped ch).2 := by
  rw [move]
  split
  · exact ⟨valid.quotes, fun _ => rfl⟩
  split
  · next cover => exact ⟨valid.quotes, fun none_ => absurd none_ cover.2⟩
  split
  · next mark =>
    refine ⟨fun c same => ?_, fun _ => rfl⟩
    dsimp only at same
    split at same
    · cases same
    · split at same
      · rw [← Option.some.inj same]
        exact mark
      · exact valid.quotes c same
  · exact ⟨valid.quotes, fun _ => rfl⟩

theorem move_outside (ch : Char) : move none false ch = (if isQuote ch then some ch else none, false) := by
  rw [move, if_neg Bool.false_ne_true, if_neg fun cover => cover.2 rfl]
  split <;> rfl

theorem move_inside {quote : Char} (known : isQuote quote = true) (ch : Char) : move (some quote) false ch =
    if ch = '\\' then (some quote, true) else (if ch = quote then none else some quote, false) := by
  rw [move, if_neg Bool.false_ne_true]
  by_cases cover : ch = '\\'
  · rw [if_pos cover, if_pos ⟨cover, Option.some_ne_none _⟩]
  · rw [if_neg cover, if_neg fun both => cover both.1]
    by_cases same : ch = quote
    · rw [same, if_pos known, if_pos rfl, if_pos rfl]
    · rw [if_neg same, if_neg fun equal => same (Option.some.inj equal).symm,
        if_neg (Option.some_ne_none quote)]
      split <;> rfl

theorem move_next {quote : Option Char} {escaped : Bool} (valid : Valid quote escaped) {ch : Char}
    {ahead : Option Char} (other : ¬(ch = '/' ∧ ahead = some '/' ∧ quote = none)) :
    next false (stateOf quote escaped) ch ahead =
      (stateOf (move quote escaped ch).1 (move quote escaped ch).2, true) := by
  cases quote with
  | none =>
      obtain rfl := valid.inside rfl
      have noSlashes : ¬(ch = '/' ∧ ahead = some '/') := fun both => other ⟨both.1, both.2, rfl⟩
      rw [move_outside, stateOf, next, if_neg noSlashes, if_neg fun both => Bool.noConfusion both.1]
      split <;> rfl
  | some open_ =>
      cases escaped with
      | true => rfl
      | false =>
          rw [move_inside (valid.quotes open_ rfl), stateOf, next]
          split
          · rfl
          · split <;> rfl

/-- A line up to its comment, or as a whole, is what the scan keeps of it. -/
theorem line_read {quote : Option Char} {escaped : Bool} (valid : Valid quote escaped)
    {line : List Char} (free : '\n' ∉ line) :
    (∃ front, slashLoop quote escaped line = some front ∧
      ∀ rest, Leads false (stateOf quote escaped) (line ++ rest) front .line rest) ∨
    slashLoop quote escaped line = none ∧ ∃ later open_, Valid later open_ ∧
      ∀ rest, rest.head? ≠ some '/' → Leads false (stateOf quote escaped)
      (line ++ rest) line (stateOf later open_) rest := by
  induction line generalizing quote escaped with
  | nil => exact .inr ⟨rfl, quote, escaped, valid, fun rest _ => leads_none _ rest⟩
  | cons ch line ih =>
      have within : '\n' ∉ line := fun member => free (List.mem_cons_of_mem _ member)
      have after := move_valid valid ch
      cases line with
      | nil =>
          refine .inr ⟨rfl, _, _, after, fun rest ahead => ?_⟩
          exact leads_kept (move_next valid fun all => ahead all.2.1)
      | cons nxt more =>
          rw [slash_loop_step]
          by_cases comment : escaped = false ∧ ch = '/' ∧ nxt = '/' ∧ quote = none
          · obtain ⟨rfl, rfl, rfl, rfl⟩ := comment
            rw [if_pos ⟨rfl, rfl, rfl, rfl⟩]
            have body : '\n' ∉ more := fun member => within (List.mem_cons_of_mem _ member)
            exact .inl ⟨[], rfl, fun rest => leads_trans (leads_slashes _) (leads_line body rest)⟩
          · rw [if_neg comment]
            have other : ¬(ch = '/' ∧ some nxt = some '/' ∧ quote = none) := fun all =>
              comment ⟨valid.inside all.2.2, all.1, Option.some.inj all.2.1, all.2.2⟩
            have one (rest : List Char) :
                Leads false (stateOf quote escaped) (ch :: (nxt :: more ++ rest)) [ch]
                (stateOf (move quote escaped ch).1 (move quote escaped ch).2) (nxt :: more ++ rest) :=
              leads_kept (move_next valid other)
            rcases ih after within with ⟨front, found, leads⟩ | ⟨none_, later, open_, good, leads⟩
            · exact .inl ⟨ch :: front, by rw [found]; rfl, fun rest => leads_trans (one rest) (leads rest)⟩
            · exact .inr ⟨by rw [none_]; rfl, later, open_, good,
                fun rest ahead => leads_trans (one rest) (leads rest ahead)⟩

/-- What the loop leaves of a line, before blanks are cut off. -/
def bareLine (quote : Option Char) (line : List Char) : List Char := (slashLoop quote false line).getD line

theorem break_next {quote : Option Char} {escaped : Bool} (valid : Valid quote escaped)
    (ahead : Option Char) :
    next false (stateOf quote escaped) '\n' ahead = (stateOf quote false, true) := by
  cases quote with
  | none =>
      obtain rfl := valid.inside rfl
      rfl
  | some open_ =>
      cases escaped with
      | true => rfl
      | false =>
          have other : ¬ '\n' = open_ := by
            rintro rfl
            exact absurd (valid.quotes _ rfl) (by decide)
          rw [stateOf, next, if_neg (by decide), if_neg other]

theorem line_break {quote : Option Char} (valid : Valid quote false) {line : List Char}
    (free : '\n' ∉ line) :
    ∃ later, Valid later false ∧ ∀ rest, Leads false (stateOf quote false) (line ++ '\n' :: rest)
      (bareLine quote line ++ ['\n']) (stateOf later false) rest := by
  rcases line_read valid free with ⟨front, found, leads⟩ | ⟨none_, later, open_, good, leads⟩
  · have broken (ahead : Option Char) : next false .line '\n' ahead = (.code, true) := rfl
    refine ⟨none, ⟨nofun, fun _ => rfl⟩, fun rest => ?_⟩
    rw [bareLine, found]
    exact leads_trans (leads _) (leads_kept (broken _))
  · refine ⟨later, ⟨good.quotes, fun _ => rfl⟩, fun rest => ?_⟩
    rw [bareLine, none_]
    exact leads_trans (leads _ (by simp)) (leads_kept (break_next good _))

theorem line_last {quote : Option Char} (valid : Valid quote false) {line : List Char}
    (free : '\n' ∉ line) :
    kept false (stateOf quote false) line = bareLine quote line := by
  have whole := List.append_nil line
  rcases line_read valid free with ⟨front, found, leads⟩ | ⟨none_, later, open_, good, leads⟩
  · have keeps := (leads []).keeps
    rw [whole] at keeps
    rw [keeps, bareLine, found]
    exact List.append_nil front
  · have keeps := (leads [] nofun).keeps
    rw [whole] at keeps
    rw [keeps, bareLine, none_]
    exact whole

theorem quote_of_state (quote : Option Char) : quoteOf (stateOf quote false) = quote := by
  cases quote <;> rfl

/-- What the scan keeps of a line. -/
def scannedLine (start : State × List Char) : List Char := bareLine (quoteOf start.1) start.2

theorem lines_kept {quote : Option Char} (valid : Valid quote false) {lines : List (List Char)}
    (filled : lines ≠ []) (free : ∀ line ∈ lines, '\n' ∉ line) :
    kept false (stateOf quote false) (['\n'].intercalate lines) =
      ['\n'].intercalate ((lineStarts (stateOf quote false) lines).map scannedLine) := by
  induction lines generalizing quote with
  | nil => exact absurd rfl filled
  | cons line rest ih =>
      have here : scannedLine (stateOf quote false, line) = bareLine quote line := by
        rw [scannedLine, quote_of_state]
      cases rest with
      | nil =>
          rw [List.intercalate_singleton, lineStarts, lineStarts, List.map_singleton,
            List.intercalate_singleton, here, line_last valid (free line List.mem_cons_self)]
      | cons second others =>
          obtain ⟨later, good, leads⟩ := line_break valid (free line List.mem_cons_self)
          have ends : ending false (stateOf quote false) (line ++ ['\n']) = stateOf later false :=
            (leads []).ends
          have tail := ih good (List.cons_ne_nil _ _) fun other member =>
            free other (List.mem_cons_of_mem _ member)
          have starts : (lineStarts (stateOf quote false) (line :: second :: others)).map scannedLine =
              bareLine quote line :: (lineStarts (stateOf later false) (second :: others)).map
              scannedLine := by
            rw [lineStarts, ends, List.map_cons, here]
          rw [List.intercalate_cons_cons, List.append_assoc, List.singleton_append, (leads _).keeps,
            tail, starts, lineStarts, List.map_cons, List.intercalate_cons_cons]

theorem starts_valid {quote : Option Char} (valid : Valid quote false) {lines : List (List Char)}
    (free : ∀ line ∈ lines, '\n' ∉ line) :
    ∀ start ∈ lineStarts (stateOf quote false) lines, Valid (quoteOf start.1) false ∧ '\n' ∉ start.2 := by
  induction lines generalizing quote with
  | nil => exact nofun
  | cons line rest ih =>
      obtain ⟨later, good, leads⟩ := line_break valid (free line List.mem_cons_self)
      have ends : ending false (stateOf quote false) (line ++ ['\n']) = stateOf later false :=
        (leads []).ends
      rw [lineStarts, ends, List.forall_mem_cons, quote_of_state]
      exact ⟨⟨valid, free line List.mem_cons_self⟩,
        ih good fun other member => free other (List.mem_cons_of_mem _ member)⟩

theorem starts_lines (state : State) (lines : List (List Char)) :
    (lineStarts state lines).map Prod.snd = lines := by
  induction lines generalizing state with
  | nil => rfl
  | cons line rest ih => rw [lineStarts, List.map_cons, ih]

/-! The lines that are written. -/

theorem loop_parts {quote : Option Char} {escaped : Bool} {line front : List Char}
    (found : slashLoop quote escaped line = some front) : ∃ more, line = front ++ '/' :: more := by
  induction line generalizing quote escaped front with
  | nil => cases found
  | cons ch line ih =>
      cases line with
      | nil => cases found
      | cons nxt more =>
          rw [slash_loop_step] at found
          split at found
          · next comment => exact ⟨nxt :: more, by rw [← Option.some.inj found, comment.2.1]; rfl⟩
          · obtain ⟨tail, later, rfl⟩ := Option.map_eq_some_iff.mp found
            obtain ⟨others, whole⟩ := ih later
            exact ⟨others, by rw [whole]; rfl⟩

theorem loop_front {quote : Option Char} {escaped : Bool} {line front : List Char}
    (found : slashLoop quote escaped line = some front) : front <+: line := by
  obtain ⟨more, whole⟩ := loop_parts found
  exact ⟨_, whole.symm⟩

theorem bare_front (quote : Option Char) (line : List Char) : bareLine quote line <+: line := by
  rw [bareLine]
  cases found : slashLoop quote false line with
  | none => exact List.prefix_rfl
  | some front => exact loop_front found

theorem rstrip_twice (text : List Char) : rstrip (rstrip text) = rstrip text :=
  List.rdropWhile_idempotent isSpace text

theorem rstrip_line (line : List Char) :
    rstrip (stripSlashLineComment line) = rstrip (bareLine none line) := by
  rw [stripSlashLineComment, bareLine]
  cases slashLoop none false line with
  | none => rfl
  | some front => exact rstrip_twice front

theorem blank_inert (c : Char) (shown : isSpace c = true) : Inert c := by
  constructor
  · rintro rfl
    exact absurd shown (by decide)
  · by_contra quote
    have quotes := Bool.eq_true_of_not_eq_false quote
    simp only [isQuote, Bool.or_eq_true, decide_eq_true_eq] at quotes
    rcases quotes with (rfl | rfl) | rfl
    · exact absurd shown (by decide)
    · exact absurd shown (by decide)
    · exact absurd shown (by decide)

theorem slashes_found {blanks : List Char} (all : ∀ c ∈ blanks, isSpace c = true) (rest : List Char) :
    slashLoop none false (blanks ++ '/' :: '/' :: rest) = some blanks := by
  induction blanks with
  | nil =>
      rw [List.nil_append, slash_loop_step, if_pos ⟨rfl, rfl, rfl, rfl⟩]
  | cons c more ih =>
      obtain ⟨noSlash, noQuote⟩ := blank_inert c (all c List.mem_cons_self)
      have later := ih fun other member => all other (List.mem_cons_of_mem _ member)
      obtain ⟨nxt, others, whole⟩ : ∃ nxt others, more ++ '/' :: '/' :: rest = nxt :: others :=
        List.exists_cons_of_ne_nil (List.append_ne_nil_of_right_ne_nil _ (List.cons_ne_nil _ _))
      have moved : move none false c = (none, false) := by rw [move_outside, noQuote]; rfl
      rw [whole] at later
      rw [List.cons_append, whole, slash_loop_step, if_neg fun all => noSlash all.2.1, moved, later]
      rfl

/-- No line starts with slashes when its comment is gone. -/
theorem stripped_slashes (line : List Char) : ¬['/', '/'] <+: lstrip (stripSlashLineComment line) := by
  rintro ⟨more, whole⟩
  have front : stripSlashLineComment line <+: line := by
    rw [stripSlashLineComment]
    cases found : slashLoop none false line with
    | none => exact List.prefix_rfl
    | some front => exact (List.rdropWhile_prefix isSpace front).trans (loop_front found)
  have parts : (stripSlashLineComment line).takeWhile isSpace ++
      '/' :: '/' :: more = stripSlashLineComment line := by
    have slashes : '/' :: '/' :: more = lstrip (stripSlashLineComment line) := whole
    rw [slashes]
    exact List.takeWhile_append_dropWhile
  obtain ⟨rest, ends⟩ := front
  have blanks : ∀ c ∈ (stripSlashLineComment line).takeWhile isSpace, isSpace c = true := fun c member =>
    List.mem_takeWhile_imp member
  have found := slashes_found blanks (more ++ rest)
  rw [← List.cons_append, ← List.cons_append, ← List.append_assoc, parts, ends] at found
  -- Then nothing but blanks was left, and these were cut off.
  have none_ : stripSlashLineComment line = [] := by
    rw [stripSlashLineComment, found]
    exact List.rdropWhile_eq_nil_iff.mpr blanks
  rw [none_] at whole
  cases whole

theorem strip_line {suffix name : String} (slash : suffix ∈ slashSuffixes)
    (hash : suffix ∉ [".ex", ".exs"]) (other : name ≠ "Dockerfile") (line : List Char) :
    stripLine suffix name line = some (rstrip (bareLine none line)) := by
  rw [stripLine, if_pos slash,
    if_neg fun front => stripped_slashes line (List.isPrefixOf_iff_prefix.mp front),
    if_neg fun both => hash both.1, if_neg fun both => other both.1, rstrip_line]

theorem splitlines_cons {c : Char} {rest : List Char} (other : ¬(c = '\r' ∧ rest.head? = some '\n')) :
    splitlines (c :: rest) =
      if isBoundary c then [] :: splitlines rest
      else
        match splitlines rest with
        | [] => [[c]]
        | line :: more => (c :: line) :: more := by
  rw [splitlines]
  rintro _ rfl rfl
  exact absurd ⟨rfl, rfl⟩ other

/-- A carriage return before a line feed counts for nothing. -/
theorem splitlines_return {rest : List Char} (feed : rest.head? = some '\n') :
    splitlines ('\r' :: rest) = splitlines rest := by
  obtain ⟨back, rfl⟩ := List.head?_eq_some_iff.mp feed
  rfl

theorem splitlines_free (text : List Char) : ∀ line ∈ splitlines text, '\n' ∉ line := by
  induction text with
  | nil => exact nofun
  | cons c rest ih =>
      by_cases return_ : c = '\r' ∧ rest.head? = some '\n'
      · rw [return_.1, splitlines_return return_.2]
        exact ih
      rw [splitlines_cons return_]
      by_cases boundary : isBoundary c = true
      · rw [if_pos boundary]
        exact List.forall_mem_cons.mpr ⟨List.not_mem_nil, ih⟩
      · have noFeed : '\n' ≠ c := by
          rintro rfl
          exact boundary rfl
        rw [if_neg boundary]
        cases pieces : splitlines rest with
        | nil =>
            intro line member inside
            rw [List.mem_singleton.mp member, List.mem_singleton] at inside
            exact noFeed inside
        | cons line more =>
            rw [pieces, List.forall_mem_cons] at ih
            refine List.forall_mem_cons.mpr ⟨fun inside => ?_, ih.2⟩
            rcases List.mem_cons.mp inside with here | later
            · exact noFeed here
            · exact ih.1 later

/-- Blanks at its end do not matter to what is made of a line, and nothing is made of an empty one. -/
structure BlindToEnds (f : List Char → List Char) : Prop where
  ends : ∀ line blanks, (∀ c ∈ blanks, isSpace c = true) → f (line ++ blanks) = f line
  empty : f [] = []

def seen (f : List Char → List Char) (lines : List (List Char)) : List (List Char) :=
  (lines.map f).filter fun line => line ≠ []

theorem boundary_blank {c : Char} (boundary : isBoundary c = true) : isSpace c = true := by
  simp only [isBoundary, isSpace, Bool.or_eq_true, Bool.and_eq_true, decide_eq_true_eq] at boundary ⊢
  omega

/-- The first lines differ by blanks, and the further ones by blank lines. -/
structure Pieces (f : List Char → List Char) (text line blanks : List Char)
    (more others : List (List Char)) : Prop where
  pieces : splitlines text = line :: more
  split : text.splitOn '\n' = (line ++ blanks) :: others
  blank : ∀ c ∈ blanks, isSpace c = true
  same : seen f more = seen f others

section Blind
variable {f : List Char → List Char} (blind : BlindToEnds f)
include blind

theorem pieces_seen {text line blanks : List Char} {more others : List (List Char)}
    (parts : Pieces f text line blanks more others) :
    seen f (splitlines text) = seen f (text.splitOn '\n') := by
  have same := parts.same
  rw [seen, seen] at same
  rw [parts.pieces, parts.split, seen, seen, List.map_cons, List.map_cons,
    blind.ends line blanks parts.blank, List.filter_cons, List.filter_cons, same]

theorem nothing_seen : seen f (splitlines []) = seen f (List.splitOn '\n' []) := by
  rw [List.splitOn_nil, seen, seen, List.map_singleton, blind.empty]
  rfl

theorem seen_blank {line : List Char} (blank : ∀ c ∈ line, isSpace c = true) (rest : List (List Char)) :
    seen f (line :: rest) = seen f rest := by
  have none_ : f line = [] := (blind.ends [] line blank).trans blind.empty
  rw [seen, List.map_cons, none_]
  rfl

theorem splitlines_parts {text : List Char} (ends : lineEnds text = true) :
    text = [] ∨ ∃ line blanks more others, Pieces f text line blanks more others := by
  induction text with
  | nil => exact .inl rfl
  | cons c rest ih =>
      rw [lineEnds, Bool.and_eq_true, Bool.or_eq_true, Bool.or_eq_true, Bool.not_eq_true'] at ends
      obtain ⟨here, tail⟩ := ends
      have before := ih tail
      have seen_ : seen f (splitlines rest) = seen f (rest.splitOn '\n') := by
        rcases before with rfl | ⟨_, _, _, _, parts⟩
        · exact nothing_seen blind
        · exact pieces_seen blind parts
      obtain ⟨first, others, split⟩ := List.exists_cons_of_ne_nil (List.splitOn_ne_nil '\n' rest)
      have start : (rest.splitOn '\n').head? = some _ := split_head rest
      rw [split, List.head?_cons, Option.some.injEq] at start
      have joined (other : c ≠ '\n') : (c :: rest).splitOn '\n' = (c :: first) :: others := by
        rw [List.splitOn_cons_eq_if_modifyHead, if_neg fun equal => other (beq_iff_eq.mp equal), split]
        rfl
      refine .inr ?_
      by_cases return_ : c = '\r' ∧ rest.head? = some '\n'
      · obtain ⟨rfl, feed⟩ := return_
        obtain ⟨back, rfl⟩ := List.head?_eq_some_iff.mp feed
        have empty (rest : List (List Char)) : seen f ([] :: rest) = seen f rest :=
          seen_blank blind (List.forall_mem_nil _) rest
        exact ⟨[], ['\r'], splitlines back, back.splitOn '\n', rfl, rfl,
          List.forall_mem_singleton.mpr rfl, (empty _).symm.trans (seen_.trans (empty _))⟩
      by_cases boundary : isBoundary c = true
      · have pieces : splitlines (c :: rest) = [] :: splitlines rest := by
          rw [splitlines_cons return_, if_pos boundary]
        by_cases feed : c = '\n'
        · refine ⟨[], [], splitlines rest, rest.splitOn '\n', pieces, ?_, nofun, seen_⟩
          rw [List.splitOn_cons_eq_if_modifyHead, if_pos (beq_iff_eq.mpr feed)]
          rfl
        · have blanks : ∀ d ∈ first, isSpace d = true := by
            rw [start]
            refine List.all_eq_true.mp (here.resolve_left ?_)
            rintro (inner | same)
            · exact absurd boundary (by rw [inner]; decide)
            · exact feed (of_decide_eq_true same)
          -- The rest of the line is blank, and so is what splitlines makes of it.
          refine ⟨[], c :: first, splitlines rest, others, pieces, joined feed,
            List.forall_mem_cons.mpr ⟨boundary_blank boundary, blanks⟩, ?_⟩
          rw [seen_, split, seen_blank blind blanks]
      · have feed : c ≠ '\n' := by
          rintro rfl
          exact boundary rfl
        have pieces := splitlines_cons return_
        rw [if_neg boundary] at pieces
        rcases before with rfl | ⟨line, blanks, more, lines, parts⟩
        · obtain ⟨rfl, rfl⟩ := List.cons.inj split
          exact ⟨[c], [], [], [], pieces, joined feed, nofun, rfl⟩
        · rw [parts.pieces] at pieces
          rw [parts.split] at split
          obtain ⟨rfl, rfl⟩ := List.cons.inj split
          exact ⟨c :: line, blanks, more, lines, pieces, joined feed, parts.blank, parts.same⟩

/-- The lines of str.splitlines, and the ones between line feeds. -/
theorem splitlines_seen {text : List Char} (ends : lineEnds text = true) :
    seen f (splitlines text) = seen f (text.splitOn '\n') := by
  rcases splitlines_parts blind ends with rfl | ⟨_, _, _, _, parts⟩
  · exact nothing_seen blind
  · exact pieces_seen blind parts

end Blind

theorem loop_no_slash {quote : Option Char} {escaped : Bool} {line : List Char} (free : '/' ∉ line) :
    slashLoop quote escaped line = none := by
  induction line generalizing quote escaped with
  | nil => rfl
  | cons ch line ih =>
      cases line with
      | nil => rfl
      | cons nxt more =>
          have noSlash : ¬(escaped = false ∧ ch = '/' ∧ nxt = '/' ∧ quote = none) := by
            rintro ⟨-, rfl, -⟩
            exact free List.mem_cons_self
          rw [slash_loop_step, if_neg noSlash, ih fun member => free (List.mem_cons_of_mem _ member)]
          rfl

theorem loop_blanks {quote : Option Char} {escaped : Bool} (line : List Char) {blanks : List Char}
    (all : ∀ c ∈ blanks, isSpace c = true) :
    slashLoop quote escaped (line ++ blanks) = slashLoop quote escaped line := by
  have free : '/' ∉ blanks := fun member => (blank_inert '/' (all '/' member)).1 rfl
  induction line generalizing quote escaped with
  | nil => exact loop_no_slash free
  | cons ch line ih =>
      cases line with
      | nil =>
          cases blanks with
          | nil => rfl
          | cons nxt more =>
              have noSlash : ¬(escaped = false ∧ ch = '/' ∧ nxt = '/' ∧ quote = none) := by
                rintro ⟨-, -, rfl, -⟩
                exact free List.mem_cons_self
              rw [List.singleton_append, slash_loop_step, if_neg noSlash, loop_no_slash free]
              rfl
      | cons nxt more =>
          rw [List.cons_append, List.cons_append, slash_loop_step, slash_loop_step, ← List.cons_append, ih]

theorem bare_blind : BlindToEnds fun line => rstrip (bareLine none line) := by
  constructor
  · intro line blanks all
    show rstrip (bareLine none (line ++ blanks)) = rstrip (bareLine none line)
    rw [bareLine, bareLine, loop_blanks line all]
    cases slashLoop none false line with
    | some front => rfl
    | none =>
        have ends : (line ++ blanks).reverse.dropWhile isSpace = line.reverse.dropWhile isSpace := by
          rw [List.reverse_append, List.dropWhile_append_of_pos fun c member =>
            all c (List.mem_reverse.mp member)]
        exact congrArg List.reverse ends
  · rfl

theorem block_marks : Marks true blockOpener blockCloser :=
  ⟨by decide, by decide, by decide, fun _ => ⟨rfl, rfl⟩⟩

theorem html_marks : Marks false htmlOpener htmlCloser :=
  ⟨by decide, by decide, by decide, nofun⟩

/-- What the substitutions leave has the same lines when its line comments are gone. -/
theorem sub_comments_visible {text : List Char} (source : SourceEnds text) (spaced : Spaced text) :
    visible '\n' isSpace (kept false .code (subComments text)) =
      visible '\n' isSpace (withoutComments text) := by
  have closed : Closed (ending true .code text) := by
    rcases source with code | line
    · rw [code]
      trivial
    · rw [line]
      trivial
  have blocks : Fine true isSpace blockOpener blockCloser .code text := ⟨trivial, spaced.blocks, closed⟩
  have html : Fine false isSpace htmlOpener htmlCloser .code (dropSpans blockOpener blockCloser 0 text) :=
    ⟨trivial, spaced.html, ending_closed (show Closed .code from trivial) _⟩
  exact (fine_same blank_inert rfl html_marks html []).trans
    (fine_same blank_inert rfl block_marks blocks [])

def cLike : List String := [".ts", ".js", ".go", ".cpp", ".hpp"]

theorem suffix_slash : ∀ suffix ∈ cLike, suffix ∈ slashSuffixes ∧ suffix ∉ [".ex", ".exs"] := by decide

theorem named_other {suffix : String} (member : suffix ∈ cLike) (stem : String) :
    stem ++ suffix ≠ "Dockerfile" := by
  have ends : ∀ suffix ∈ cLike, suffix.toList.getLast?.isSome = true ∧
      suffix.toList.getLast? ≠ some 'e' := by decide
  obtain ⟨last, shown⟩ := Option.isSome_iff_exists.mp (ends suffix member).1
  intro same
  have lasts : (stem ++ suffix).toList.getLast? = some 'e' := by
    rw [same]
    decide
  rw [String.toList_append, List.getLast?_append, shown] at lasts
  exact (ends suffix member).2 (shown.trans lasts)

theorem lines_written {text : List Char} {suffix : String} (member : suffix ∈ cLike) (stem : String) :
    (splitlines text).filterMap (stripLine suffix (stem ++ suffix)) =
      (splitlines text).map fun line => rstrip (bareLine none line) := by
  obtain ⟨slash, hash⟩ := suffix_slash suffix member
  rw [← List.filterMap_eq_map]
  exact List.filterMap_congr fun line _ => strip_line slash hash (named_other member stem) line

/-! What is seen of a line. -/

def shown (line : List Char) : Nat := line.countP fun c => !isSpace c

theorem shown_blanks {blanks : List Char} (all : ∀ c ∈ blanks, isSpace c = true) : shown blanks = 0 :=
  List.countP_eq_zero.mpr fun c member => by
    rw [all c member]
    decide

theorem shown_rstrip (line : List Char) : shown (rstrip line) = shown line := by
  have parts : rstrip line ++ line.rtakeWhile isSpace = line := List.rdropWhile_append_rtakeWhile
  have blanks : shown (line.rtakeWhile isSpace) = 0 :=
    shown_blanks fun c member => List.mem_rtakeWhile_imp member
  conv => rhs; rw [← parts, shown, List.countP_append]
  rw [shown] at blanks
  rw [blanks]
  rfl

theorem shown_lstrip (line : List Char) : shown (lstrip line) = shown line := by
  have parts : line.takeWhile isSpace ++ lstrip line = line := List.takeWhile_append_dropWhile
  have blanks : shown (line.takeWhile isSpace) = 0 :=
    shown_blanks fun c member => List.mem_takeWhile_imp member
  conv => rhs; rw [← parts, shown, List.countP_append]
  rw [shown] at blanks
  rw [blanks, Nat.zero_add]
  rfl

theorem rstrip_blank (line : List Char) : rstrip line = [] ↔ shown line = 0 := by
  rw [rstrip, List.rdropWhile_eq_nil_iff, shown, List.countP_eq_zero]
  simp only [Bool.not_eq_true, Bool.not_eq_false']

theorem edged_shown (lines : List (List Char)) : (edged isSpace lines).map shown = lines.map shown := by
  cases lines with
  | nil => rfl
  | cons line rest => exact congrArg (· :: rest.map shown) (shown_lstrip line)

theorem visible_shown (lines : List (List Char)) :
    (((lines.map rstrip).filter fun line => line ≠ []).map shown) =
      (lines.map shown).filter fun n => n ≠ 0 := by
  induction lines with
  | nil => rfl
  | cons line rest ih =>
      rw [List.map_cons, List.map_cons, List.filter_cons, List.filter_cons]
      by_cases none_ : shown line = 0
      · rw [if_neg (by simpa using (rstrip_blank line).mpr none_), if_neg (by simpa using none_), ih]
      · have filled : rstrip line ≠ [] := fun empty => none_ ((rstrip_blank line).mp empty)
        rw [if_pos (decide_eq_true filled), if_pos (decide_eq_true none_), List.map_cons, shown_rstrip, ih]

/-- Numbers without their zeros are the same only if the numbers are, where one list has zeros
wherever the other has. -/
theorem filtered_agree {ι : Type} {items : List ι} {f g : ι → Nat}
    (zeros : ∀ item ∈ items, f item = 0 → g item = 0)
    (same : ((items.map f).filter fun n => n ≠ 0) = (items.map g).filter fun n => n ≠ 0) :
    ∀ item ∈ items, f item = g item := by
  have fewer (items : List ι) (zeros : ∀ item ∈ items, f item = 0 → g item = 0) :
      ((items.map g).filter fun n => n ≠ 0).length ≤ ((items.map f).filter fun n => n ≠ 0).length := by
    induction items with
    | nil => exact Nat.le_refl 0
    | cons item rest ih =>
        have tail := ih fun other member => zeros other (List.mem_cons_of_mem _ member)
        have here := zeros item List.mem_cons_self
        simp only [List.map_cons, List.filter_cons]
        by_cases one : g item = 0
        · rw [if_neg (by simpa using one)]
          split
          · exact Nat.le_succ_of_le tail
          · exact tail
        · have other : ¬f item = 0 := fun none_ => one (here none_)
          rw [if_pos (by simpa using one), if_pos (by simpa using other)]
          exact Nat.succ_le_succ tail
  induction items with
  | nil => exact nofun
  | cons item rest ih =>
      have others : ∀ other ∈ rest, f other = 0 → g other = 0 :=
        fun other member => zeros other (List.mem_cons_of_mem _ member)
      have here := zeros item List.mem_cons_self
      rw [List.map_cons, List.map_cons, List.filter_cons, List.filter_cons] at same
      rw [List.forall_mem_cons]
      by_cases one : f item = 0
      · rw [if_neg (by simpa using one), if_neg (by simpa using here one)] at same
        exact ⟨one.trans (here one).symm, ih others same⟩
      · by_cases other : g item = 0
        · rw [if_pos (by simpa using one), if_neg (by simpa using other)] at same
          have size := congrArg List.length same
          have bound := fewer rest others
          rw [List.length_cons] at size
          omega
        · rw [if_pos (by simpa using one), if_pos (by simpa using other)] at same
          obtain ⟨head, tail⟩ := List.cons.inj same
          exact ⟨head, ih others tail⟩

/-! Two readings of one line. -/

theorem longer_shown {front more other line : List Char} (whole : line = front ++ '/' :: more)
    (part : other <+: line) (longer : front.length < other.length) : shown front < shown other := by
  have slash : front ++ ['/'] <+: line := ⟨more, by rw [whole, List.append_assoc]; rfl⟩
  obtain ⟨rest, parts⟩ :=
    List.prefix_of_prefix_length_le slash part (by rw [List.length_append]; exact longer)
  have one : shown ['/'] = 1 := by decide
  rw [← parts, shown, shown, List.countP_append, List.countP_append]
  rw [shown] at one
  omega

/-- A reading that shows as much of the line as one that ends at a comment ends at the same comment. -/
theorem found_agree {one other : Option Char} {line front : List Char}
    (found : slashLoop one false line = some front)
    (same : shown front = shown (bareLine other line)) :
    slashLoop other false line = some front := by
  obtain ⟨more, whole⟩ := loop_parts found
  have parts := bare_front other line
  have short : ¬front.length < (bareLine other line).length := fun longer =>
    Nat.lt_irrefl _ (same ▸ longer_shown whole parts longer)
  have size := congrArg List.length whole
  rw [List.length_append, List.length_cons] at size
  cases stops : slashLoop other false line with
  | none =>
      rw [bareLine, stops, Option.getD_none] at short
      omega
  | some back =>
      rw [bareLine, stops, Option.getD_some] at short same
      obtain ⟨others, ends⟩ := loop_parts stops
      have long : ¬back.length < front.length := fun longer =>
        Nat.lt_irrefl _ (same ▸ longer_shown ends (loop_front found) longer)
      have equal : back = front :=
        (List.prefix_of_prefix_length_le (loop_front stops) (loop_front found)
          (Nat.le_of_not_lt short)).eq_of_length
          (Nat.le_antisymm (Nat.le_of_not_lt short) (Nat.le_of_not_lt long))
      rw [equal]

theorem bare_agree {one other : Option Char} {line : List Char}
    (same : shown (bareLine one line) = shown (bareLine other line)) :
    slashLoop one false line = slashLoop other false line := by
  cases found : slashLoop one false line with
  | some front =>
      rw [bareLine, found, Option.getD_some] at same
      exact (found_agree found same).symm
  | none =>
      cases stops : slashLoop other false line with
      | none => rfl
      | some back =>
          have back_ : bareLine other line = back := by rw [bareLine, stops, Option.getD_some]
          rw [back_] at same
          rw [found_agree stops same.symm] at found
          cases found

theorem move_stays {quote ch : Char} {escaped : Bool} (noQuote : isQuote ch = false) :
    (move (some quote) escaped ch).1 = some quote := by
  rw [move, noQuote]
  split
  · rfl
  · split <;> rfl

/-- In a literal there is no comment before a quote. -/
theorem loop_quote {quote : Char} {escaped : Bool} {line front : List Char}
    (found : slashLoop (some quote) escaped line = some front) : ∃ c ∈ front, isQuote c = true := by
  induction line generalizing escaped front with
  | nil => cases found
  | cons ch line ih =>
      cases line with
      | nil => cases found
      | cons nxt more =>
          have inside : ¬(escaped = false ∧ ch = '/' ∧ nxt = '/' ∧ some quote = none) :=
            fun all => nomatch all.2.2.2
          rw [slash_loop_step, if_neg inside] at found
          obtain ⟨tail, later, rfl⟩ := Option.map_eq_some_iff.mp found
          by_cases mark : isQuote ch = true
          · exact ⟨ch, List.mem_cons_self, mark⟩
          · rw [move_stays (Bool.eq_false_iff.mpr mark)] at later
            obtain ⟨c, member, known⟩ := ih later
            exact ⟨c, List.mem_cons_of_mem _ member, known⟩

theorem bare_blank {quote : Option Char} {line : List Char} (none_ : shown (bareLine quote line) = 0) :
    shown (bareLine none line) = 0 := by
  cases quote with
  | none => exact none_
  | some open_ =>
      rw [bareLine] at none_
      cases found : slashLoop (some open_) false line with
      | some front =>
          obtain ⟨c, member, mark⟩ := loop_quote found
          rw [found, Option.getD_some, shown, List.countP_eq_zero] at none_
          have blank : isSpace c = true := by simpa using none_ c member
          rw [(blank_inert c blank).2] at mark
          cases mark
      | none =>
          rw [found, Option.getD_none] at none_
          exact Nat.le_zero.mp (none_ ▸ (bare_front none line).sublist.countP_le)

/-! The export. -/

theorem joined_shown {lines : List (List Char)} (free : ∀ line ∈ lines, '\n' ∉ line) :
    (edged isSpace (visible '\n' isSpace (['\n'].intercalate lines))).map shown =
      (lines.map shown).filter fun n => n ≠ 0 := by
  rw [edged_shown, visible_joined free]
  exact visible_shown lines

/-- The lines of the export are the lines that the loop leaves. -/
theorem written_visible {text : List Char} (ends : lineEnds text = true) :
    visible '\n' isSpace
      (['\n'].intercalate ((splitlines text).map fun line => rstrip (bareLine none line))) =
      visible '\n' isSpace (['\n'].intercalate ((text.splitOn '\n').map (bareLine none))) := by
  have free {lines : List (List Char)} (apart : ∀ line ∈ lines, '\n' ∉ line) {f : List Char → List Char}
      (front : ∀ line, f line <+: line) : ∀ line ∈ lines.map f, '\n' ∉ line := by
    intro line member inside
    obtain ⟨whole, listed, rfl⟩ := List.mem_map.mp member
    exact apart whole listed ((front whole).subset inside)
  have out : ∀ line ∈ (splitlines text).map fun line => rstrip (bareLine none line), '\n' ∉ line :=
    free (splitlines_free text) fun line => (List.rdropWhile_prefix isSpace _).trans (bare_front none line)
  have kept_ := free (split_free text) (bare_front none)
  have trimmed (lines : List (List Char)) :
      (lines.map fun line => rstrip (bareLine none line)).map (List.rdropWhile isSpace) =
      lines.map fun line => rstrip (bareLine none line) := by
    rw [List.map_map]
    exact List.map_congr_left fun line _ => rstrip_twice _
  have same := splitlines_seen bare_blind ends
  rw [seen, seen] at same
  rw [visible_joined out, visible_joined kept_, trimmed, same, List.map_map]
  rfl

theorem export_normal {text : List Char} (spaced : Spaced text) {suffix : String}
    (member : suffix ∈ cLike) (stem : String) :
    normalise (stripComments text suffix (stem ++ suffix)) =
      normalise (['\n'].intercalate (((subComments text).splitOn '\n').map (bareLine none))) := by
  have edges (text : List Char) : normalise (strip text ++ ['\n']) = normalise text := by
    rw [normalise, visible_snoc rfl]
    exact edged_strip text
  rw [stripComments, edges, lines_written member stem, normalise, normalise, written_visible spaced.lines]

theorem scan_normal {text : List Char} (source : SourceEnds text) (spaced : Spaced text) :
    normalise (withoutComments text) =
      normalise (['\n'].intercalate
        ((lineStarts .code ((subComments text).splitOn '\n')).map scannedLine)) := by
  have valid : Valid none false := ⟨nofun, fun _ => rfl⟩
  have scanned := lines_kept valid (List.splitOn_ne_nil _ _) (split_free (subComments text))
  rw [List.intercalate_splitOn] at scanned
  rw [normalise, ← sub_comments_visible source spaced]
  exact congrArg (fun text => edged isSpace (visible '\n' isSpace text)) scanned

/-- Where the substitutions take out comments, exactly the comments go if and only if every line
that starts in a literal shows the same comment from outside of it. -/
theorem strip_comments_iff {text : List Char} (source : SourceEnds text) (spaced : Spaced text)
    {suffix : String} (member : suffix ∈ cLike) (stem : String) :
    normalise (stripComments text suffix (stem ++ suffix)) = normalise (withoutComments text) ↔
      Alike text := by
  rw [export_normal spaced member stem, scan_normal source spaced]
  have lines := starts_lines .code ((subComments text).splitOn '\n')
  have bare : ((subComments text).splitOn '\n').map (bareLine none) =
      (lineStarts .code ((subComments text).splitOn '\n')).map fun start => bareLine none start.2 := by
    conv => lhs; rw [← lines, List.map_map]
    rfl
  constructor
  · intro same start listed
    have valid : Valid none false := ⟨nofun, fun _ => rfl⟩
    have free := starts_valid valid (split_free (subComments text))
    have oneFree :
        ∀ line ∈ (lineStarts .code ((subComments text).splitOn '\n')).map
            fun start => bareLine none start.2, '\n' ∉ line := by
      intro line member inside
      obtain ⟨start, listed, rfl⟩ := List.mem_map.mp member
      exact (free start listed).2 ((bare_front none _).subset inside)
    have otherFree : ∀ line ∈ (lineStarts .code ((subComments text).splitOn '\n')).map scannedLine,
        '\n' ∉ line := by
      intro line member inside
      obtain ⟨start, listed, rfl⟩ := List.mem_map.mp member
      exact (free start listed).2 ((bare_front _ _).subset inside)
    have counts := congrArg (List.map shown) same
    rw [bare, normalise, normalise, joined_shown oneFree, joined_shown otherFree, List.map_map,
      List.map_map] at counts
    exact bare_agree (filtered_agree (fun start _ blank => bare_blank blank) counts.symm start listed)
  · intro alike
    rw [bare]
    refine congrArg (fun lines => normalise (['\n'].intercalate lines))
      (List.map_congr_left fun start listed => ?_)
    rw [scannedLine, bareLine, bareLine, alike start listed]

/-- Slashes in a literal, and the marks of a block comment in a line comment. -/
def commentedText : List Char := "let u = \"http://x\"; // a /* b */\n/* c */ let v = 1;\n".toList

theorem commented_text_exported : Alike commentedText ∧
    (normalise (stripComments commentedText ".ts" ("a" ++ ".ts")) = normalise
      (withoutComments commentedText) ↔ Alike commentedText) :=
  ⟨by decide, strip_comments_iff (by decide) ⟨by decide, by decide, by decide⟩ (by decide) "a"⟩

/-- Two literals with the marks of a block comment. -/
def markedText : List Char := "let a = \"/*\"; let b = \"*/\";\n".toList

/-- What stands between the marks goes, and the literals with it. -/
theorem marks_in_literals_cut :
    SourceEnds markedText ∧ stripComments markedText ".ts" "a.ts" = "let a = \"\";\n".toList ∧
      normalise (stripComments markedText ".ts" "a.ts") ≠ normalise (withoutComments markedText) := by
  decide

end KosSim.TeamExport
