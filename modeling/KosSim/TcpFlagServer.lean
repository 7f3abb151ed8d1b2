import KosSim.FlagBatches
import KosSim.Library.Hex

/-!
tcp_flag_server.py: the loop that answers the lines of one client. The tables can change
between any two accesses, so the databases that the loop meets come from outside. A line
that is neither a flag nor a token still reads a second one when the address is known, and
one with a NUL character ends the connection: the lookup of the token raises.
-/

namespace KosSim.TcpFlagServer
open Library Schema FlagCrypto FlagSubmit Platform FlagBatches

abbrev Bytes := List UInt8

/-! Text. -/

def continuation (byte : UInt8) : Bool := decide (0x80 ≤ byte.toNat ∧ byte.toNat ≤ 0xBF)

/-- The range of the byte that may follow a lead byte of three or four. -/
def second (lead byte : UInt8) : Bool :=
  let low := if lead = 0xE0 then 0xA0 else if lead = 0xF0 then 0x90 else 0x80
  let high := if lead = 0xED then 0x9F else if lead = 0xF4 then 0x8F else 0xBF
  decide (low ≤ byte.toNat ∧ byte.toNat ≤ high)

def replacement : Char := Char.ofNat 0xFFFD

/-- One step of decode("utf-8", errors="replace"): the longest front of a character that
is cut off becomes one replacement character. -/
def decodeOne (lead : UInt8) (rest : Bytes) : Char × Nat :=
  let bits (byte : UInt8) : Nat := byte.toNat % 64
  if lead.toNat < 0x80 then (Char.ofNat lead.toNat, 1)
  else if 0xC2 ≤ lead.toNat ∧ lead.toNat ≤ 0xDF then
    match rest with
    | b :: _ => if continuation b then (Char.ofNat (lead.toNat % 32 * 64 + bits b), 2) else (replacement, 1)
    | [] => (replacement, 1)
  else if 0xE0 ≤ lead.toNat ∧ lead.toNat ≤ 0xEF then
    match rest with
    | b :: c :: _ =>
        if !second lead b then (replacement, 1)
        else if continuation c then (Char.ofNat ((lead.toNat % 16 * 64 + bits b) * 64 + bits c), 3)
        else (replacement, 2)
    | [b] => (replacement, if second lead b then 2 else 1)
    | [] => (replacement, 1)
  else if 0xF0 ≤ lead.toNat ∧ lead.toNat ≤ 0xF4 then
    match rest with
    | b :: c :: d :: _ =>
        if !second lead b then (replacement, 1)
        else if !continuation c then (replacement, 2)
        else if continuation d then
          (Char.ofNat (((lead.toNat % 8 * 64 + bits b) * 64 + bits c) * 64 + bits d), 4)
        else (replacement, 3)
    | [b, c] => (replacement, if !second lead b then 1 else if continuation c then 3 else 2)
    | [b] => (replacement, if second lead b then 2 else 1)
    | [] => (replacement, 1)
  else (replacement, 1)

def decodeAll : Nat → Bytes → Text
  | 0, _ => []
  | _ + 1, [] => []
  | fuel + 1, lead :: rest =>
      let (c, taken) := decodeOne lead rest
      c :: decodeAll fuel (rest.drop (taken - 1))

def decodeReplace (bytes : Bytes) : Text := decodeAll bytes.length bytes

def rstripNewlines (text : Text) : Text := (text.reverse.dropWhile fun c => c = '\r' || c = '\n').reverse

/-- What the loop makes of a line that it has read. -/
def lineText (line : Bytes) : Text := strip (rstripNewlines (decodeReplace line))

/-! Who submits. -/

structure TcpSettings where
  submitIpMap : Text := []              -- TEAM_SUBMIT_IP_MAP
  defaultToken : Text := []             -- TEAM_SUBMIT_DEFAULT_TOKEN

def parseCsv (raw : Text) : List Text := ((raw.splitOn ',').map strip).filter (· ≠ [])

def parsePair (pair : Text) : Option (Text × Text) :=
  if '=' ∉ pair then none
  else
    let key := strip (pair.takeWhile (· ≠ '='))
    let value := strip ((pair.dropWhile (· ≠ '=')).drop 1)
    if key ≠ [] ∧ value ≠ [] then some (key, value) else none

def parseMap (raw : Text) : Dict Text Text := Dict.ofList ((parseCsv raw).filterMap parsePair)

/-- SELECT id FROM teams WHERE .. AND is_nop = FALSE -/
def playingTeam (db : Db) (named : Team → Bool) : Option Int :=
  (db.teams.entries.find? fun entry => named entry.2 && !entry.2.isNop).map (·.1)

/-- The first pair with the address on either side decides. -/
def resolveSubmitterByIp (tcp : TcpSettings) (db : Db) (ip : Text) : Option Int :=
  match (parseMap tcp.submitIpMap).entries.find? fun pair => pair.2 = ip || pair.1 = ip with
  | none => none
  | some (key, value) => playingTeam db fun team => team.name.toList = if value = ip then key else value

def resolveSubmitterByToken (db : Db) (token : Text) : Except DbError (Option Int) :=
  if hasNul (strip token) then .error nulError
  else .ok (playingTeam db fun team => team.submitToken.toList = strip token)

theorem mem_drop_spaces {c : Char} (shown : isSpace c = false) (text : Text) :
    c ∈ text.dropWhile isSpace ↔ c ∈ text := by
  induction text with
  | nil => rfl
  | cons head rest ih =>
      rw [List.dropWhile_cons]
      split
      · next space =>
        have apart : c ≠ head := by
          rintro rfl
          rw [shown] at space
          cases space
        rw [ih, List.mem_cons, or_iff_right apart]
      · rfl

theorem nul_strip (text : Text) : hasNul (strip text) = hasNul text := by
  have drop := mem_drop_spaces (c := '\x00') rfl
  unfold hasNul strip
  rw [Bool.eq_iff_iff, List.contains_iff_mem, List.contains_iff_mem, List.mem_reverse, drop,
    List.mem_reverse, drop]

/-! The reader. -/

/-- asyncio's default limit for a line. -/
def limit : Nat := 65536

inductive Read where
  | line (bytes rest : Bytes)
  | overrun
  deriving DecidableEq

/-- `StreamReader.readline` on what the client sends before it closes: at the end of the stream
the line is what is left, and empty in the end. -/
def readline (stream : Bytes) : Read :=
  let front := stream.takeWhile (· ≠ 10)
  if limit < front.length then .overrun
  else .line (front ++ (stream.drop front.length).take 1) (stream.drop (front.length + 1))

/-! The loop. -/

/-- What the accesses after one line meet: the lookups, the transaction of submit_flags, and its time. -/
structure Moment where
  lookup : Db
  submit : Db
  now : Int

section Client
variable (env : Settings) (tcp : TcpSettings) (sourceIp : String) (moments : Nat → Moment)

def flagOpening : Text := flagPrefix ++ ['{']

def isAuth (text : Text) : Bool := !flagPrefix.isPrefixOf text

def submitReply (moment : Moment) (submitterId : Int) (flagLine : Text) : String :=
  match submitFlags env moment.submit moment.now submitterId [flagLine] sourceIp true with
  | .error _ => "[ERR] Internal error\n"
  | .ok (_, .offline _) => tcpLineForStatus .offline
  | .ok (_, .done response) =>
      match response.results with
      | row :: _ => row.tcpLine
      | [] => tcpLineForStatus .badFormat

/-- The end of an iteration: what is written for the flag line. -/
def answerLine (moment : Moment) (submitterId : Option Int) (flagLine : Text) : String :=
  match submitterId with
  | none => tcpLineForStatus .badIp
  | some team =>
      if flagOpening.isPrefixOf flagLine then submitReply env sourceIp moment team flagLine
      else tcpLineForStatus .badFormat

def bySecret (db : Db) (token : Text) : Except DbError (Option Int) :=
  (resolveSubmitterByToken db token).map (·.or (resolveSubmitterByIp tcp db sourceIp.toList))

def byAddress (db : Db) : Except DbError (Option Int) :=
  match resolveSubmitterByIp tcp db sourceIp.toList with
  | some team => .ok (some team)
  | none =>
      if strip tcp.defaultToken = [] then .ok none else resolveSubmitterByToken db (strip tcp.defaultToken)

/-- `number` lines have been read. The lines that the loop writes, to the end of the stream.
Nothing catches what a lookup raises, and the finally closes the connection. -/
def serve : Nat → Nat → Bytes → List String
  | 0, _, _ => []
  | fuel + 1, number, stream =>
      match readline stream with
      | .overrun => []
      | .line bytes rest =>
          if bytes = [] then []
          else
            let text := lineText bytes
            let moment := moments number
            if text = [] then serve fuel (number + 1) rest
            else if isAuth text then
              match bySecret tcp sourceIp moment.lookup text with
              | .error _ => []
              | .ok none => tcpLineForStatus .badIp :: serve fuel (number + 1) rest
              | .ok (some team) =>
                  match readline rest with
                  | .overrun => []
                  | .line second rest =>
                      if second = [] then []
                      else answerLine env sourceIp (moments (number + 1)) (some team) (lineText second) ::
                        serve fuel (number + 2) rest
            else
              match byAddress tcp sourceIp moment.lookup with
              | .error _ => []
              | .ok submitter =>
                  answerLine env sourceIp moment submitter text :: serve fuel (number + 1) rest

/-- `_handle_client`: every line takes a byte, so the fuel is never used up. -/
def handleClient (stream : Bytes) : List String :=
  serve env tcp sourceIp moments (stream.length + 1) 0 stream

end Client

/-! Streams of lines. -/

def streamOf (lines : List Bytes) : Bytes := lines.flatMap fun line => line ++ [10]

/-- A line without its newline. -/
def FitsReader (line : Bytes) : Prop := 10 ∉ line ∧ line.length < limit

instance (line : Bytes) : Decidable (FitsReader line) := inferInstanceAs (Decidable (_ ∧ _))

def textOf (line : Bytes) : Text := lineText (line ++ [10])

def blank (line : Bytes) : Prop := textOf line = []

/-- Neither blank nor the front of a flag. -/
def malformed (line : Bytes) : Prop := textOf line ≠ [] ∧ isAuth (textOf line) = true

/-- Every malformed line is without NUL and followed by a blank one. -/
def Spaced (lines : List Bytes) : Prop :=
  ∀ front line rest, lines = front ++ line :: rest → malformed line →
    hasNul (textOf line) = false ∧ ∃ next others, rest = next :: others ∧ blank next

theorem spaced_cons {line : Bytes} {rest : List Bytes} : Spaced (line :: rest) ↔
    (malformed line → hasNul (textOf line) = false ∧ ∃ next others, rest = next :: others ∧ blank next) ∧
      Spaced rest := by
  constructor
  · intro spaced
    exact ⟨spaced [] line rest rfl, fun front other after same => spaced (line :: front) other after
      (by rw [same]; rfl)⟩
  · rintro ⟨first, later⟩ front other after same
    cases front with
    | nil =>
        obtain ⟨rfl, rfl⟩ := List.cons.inj same
        exact first
    | cons head front =>
        obtain ⟨_, tail⟩ := List.cons.inj same
        exact later front other after tail

theorem spaced_calm {line : Bytes} {rest : List Bytes} (calm : ¬malformed line) :
    Spaced (line :: rest) ↔ Spaced rest := by
  rw [spaced_cons]
  exact and_iff_right fun bad => absurd bad calm

theorem spaced_blank {line next : Bytes} {rest : List Bytes} (plain : hasNul (textOf line) = false)
    (quiet : blank next) :
    Spaced (line :: next :: rest) ↔ Spaced rest := by
  rw [spaced_cons, spaced_calm fun bad => bad.1 quiet]
  exact and_iff_right fun _ => ⟨plain, next, rest, rfl, quiet⟩

theorem not_spaced_nul {line : Bytes} {rest : List Bytes} (bad : malformed line)
    (nul : hasNul (textOf line) = true) :
    ¬Spaced (line :: rest) := by
  intro spaced
  obtain ⟨plain, _⟩ := spaced [] line rest rfl bad
  rw [nul] at plain
  cases plain

theorem not_spaced_end {line : Bytes} (bad : malformed line) : ¬Spaced [line] := by
  intro spaced
  obtain ⟨_, next, others, same, _⟩ := spaced [] line [] rfl bad
  cases same

theorem not_spaced_two {line next : Bytes} {rest : List Bytes} (bad : malformed line)
    (shown : ¬blank next) :
    ¬Spaced (line :: next :: rest) := by
  intro spaced
  obtain ⟨_, other, others, same, quiet⟩ := spaced [] line (next :: rest) rfl bad
  exact shown ((List.cons.inj same).1 ▸ quiet)

theorem line_filled (line : Bytes) : line ++ [10] ≠ [] :=
  List.append_ne_nil_of_right_ne_nil _ (List.cons_ne_nil _ _)

theorem readline_end : readline [] = .line [] [] := rfl

theorem readline_line {line : Bytes} (fits : FitsReader line) (rest : List Bytes) :
    readline (streamOf (line :: rest)) = .line (line ++ [10]) (streamOf rest) := by
  have stream : streamOf (line :: rest) = line ++ 10 :: streamOf rest := by
    simp [streamOf]
  have front : (streamOf (line :: rest)).takeWhile (· ≠ 10) = line := by
    rw [stream, List.takeWhile_append_of_pos, List.takeWhile_cons_of_neg (by simp), List.append_nil]
    exact fun byte member => decide_eq_true fun same => fits.1 (same ▸ member)
  have after : (line ++ 10 :: streamOf rest).drop (line.length + 1) = streamOf rest := by
    rw [← List.drop_drop, List.drop_left]
    rfl
  rw [readline, front, if_neg (by have := fits.2; omega), stream, List.drop_left, after]
  rfl

section Stream
variable {env : Settings} {tcp : TcpSettings} {sourceIp : String} {moments : Nat → Moment}
    {team : Nat → Int}

/-- What a non-blank line is to be answered: a format error, or the status that submit_flags gives it. -/
def lineReply (env : Settings) (sourceIp : String) (moments : Nat → Moment) (team : Nat → Int)
    (number : Nat) (line : Bytes) : String :=
  if flagOpening.isPrefixOf (textOf line) then submitReply env sourceIp (moments number)
  (team number) (textOf line) else tcpLineForStatus .badFormat

/-- One answer for each non-blank line, in order. -/
def replies (env : Settings) (sourceIp : String) (moments : Nat → Moment) (team : Nat → Int) (number : Nat)
    (lines : List Bytes) : List String :=
  ((lines.zipIdx number).filter fun entry => textOf entry.1 ≠ []).map fun entry =>
    lineReply env sourceIp moments team entry.2 entry.1

theorem replies_blank {number : Nat} {line : Bytes} {rest : List Bytes} (quiet : blank line) :
    replies env sourceIp moments team number (line :: rest) =
      replies env sourceIp moments team (number + 1) rest := by
  have dropped : textOf line = [] := quiet
  rw [replies, List.zipIdx_cons, List.filter_cons_of_neg (by simp [dropped])]
  rfl

theorem replies_shown {number : Nat} {line : Bytes} {rest : List Bytes} (shown : ¬blank line) :
    replies env sourceIp moments team number (line :: rest) =
      lineReply env sourceIp moments team number line :: replies env sourceIp moments team
      (number + 1) rest := by
  have kept : textOf line ≠ [] := shown
  rw [replies, List.zipIdx_cons, List.filter_cons_of_pos (by simp [kept])]
  rfl

/-- The client's address is mapped to a playing team whenever it is looked up, and its lines are no
tokens. -/
structure Mapped (tcp : TcpSettings) (sourceIp : String) (moments : Nat → Moment) (team : Nat → Int)
    (lines : List Bytes) : Prop where
  address : ∀ number, resolveSubmitterByIp tcp (moments number).lookup sourceIp.toList = some (team number)
  noToken : ∀ number, ∀ line ∈ lines, ∀ id,
  resolveSubmitterByToken (moments number).lookup (textOf line) ≠ .ok (some id)

theorem mapped_rest {line : Bytes} {rest : List Bytes}
    (mapped : Mapped tcp sourceIp moments team (line :: rest)) :
    Mapped tcp sourceIp moments team rest :=
  ⟨mapped.address, fun number other member => mapped.noToken number other (List.mem_cons_of_mem _ member)⟩

/-! One iteration. -/

section Iteration
variable {fuel number : Nat} {line next : Bytes} {rest : List Bytes} (fits : FitsReader line)
  (mapped : Mapped tcp sourceIp moments team (line :: rest))

include fits in
theorem serve_blank (quiet : blank line) :
    serve env tcp sourceIp moments (fuel + 1) number (streamOf (line :: rest)) =
      serve env tcp sourceIp moments fuel (number + 1) (streamOf rest) := by
  rw [serve, readline_line fits]
  dsimp only
  rw [if_neg (line_filled line)]
  exact if_pos quiet

include fits mapped in
theorem serve_flag (shown : ¬blank line) (calm : ¬malformed line) :
    serve env tcp sourceIp moments (fuel + 1) number (streamOf (line :: rest)) =
      lineReply env sourceIp moments team number line ::
        serve env tcp sourceIp moments fuel (number + 1) (streamOf rest) := by
  have known : byAddress tcp sourceIp (moments number).lookup = .ok (some (team number)) := by
    rw [byAddress, mapped.address]
  have filled : lineText (line ++ [10]) ≠ [] := shown
  have flag : ¬isAuth (lineText (line ++ [10])) = true := fun auth => calm ⟨shown, auth⟩
  rw [serve, readline_line fits]
  dsimp only
  rw [if_neg (line_filled line), if_neg filled, if_neg flag, known]
  rfl

theorem by_secret_mapped (number : Nat) (mapped : Mapped tcp sourceIp moments team (line :: rest))
    (plain : hasNul (textOf line) = false) :
    bySecret tcp sourceIp (moments number).lookup (textOf line) = .ok (some (team number)) := by
  have refused := mapped.noToken number line List.mem_cons_self
  unfold resolveSubmitterByToken at refused
  rw [nul_strip, plain] at refused
  unfold bySecret resolveSubmitterByToken
  rw [nul_strip, plain, mapped.address]
  cases known : playingTeam (moments number).lookup fun team => team.submitToken.toList =
    strip (textOf line) with
  | none => rfl
  | some id => exact absurd (by rw [known]; rfl) (refused id)

include fits in
/-- The lookup of a token with NUL raises. -/
theorem serve_nul (bad : malformed line) (nul : hasNul (textOf line) = true) :
    serve env tcp sourceIp moments (fuel + 1) number (streamOf (line :: rest)) = [] := by
  have raised : bySecret tcp sourceIp (moments number).lookup (textOf line) = .error nulError := by
    unfold bySecret resolveSubmitterByToken
    rw [nul_strip, nul]
    rfl
  obtain ⟨filled, auth⟩ := bad
  rw [textOf] at raised filled auth
  rw [serve, readline_line fits]
  dsimp only
  rw [if_neg (line_filled line), if_neg filled, if_pos auth, raised]

include fits mapped in
theorem serve_last (rests : rest = []) (bad : malformed line) (plain : hasNul (textOf line) = false) :
    serve env tcp sourceIp moments (fuel + 1) number (streamOf (line :: rest)) = [] := by
  have secret := by_secret_mapped number mapped plain
  obtain ⟨filled, auth⟩ := bad
  rw [textOf] at secret filled auth
  rw [serve, readline_line fits, rests]
  dsimp only
  rw [if_neg (line_filled line), if_neg filled, if_pos auth, secret]
  dsimp only
  rw [show streamOf [] = [] from rfl, readline_end]
  rfl

end Iteration

theorem serve_swallows {fuel number : Nat} {line next : Bytes} {rest : List Bytes}
    (fits : FitsReader line) (nextFits : FitsReader next)
    (mapped : Mapped tcp sourceIp moments team (line :: next :: rest)) (bad : malformed line)
    (plain : hasNul (textOf line) = false) :
    serve env tcp sourceIp moments (fuel + 1) number (streamOf (line :: next :: rest)) =
      answerLine env sourceIp (moments (number + 1)) (some (team number)) (textOf next) ::
        serve env tcp sourceIp moments fuel (number + 2) (streamOf rest) := by
  have secret := by_secret_mapped number mapped plain
  obtain ⟨filled, auth⟩ := bad
  rw [textOf] at secret filled auth
  rw [serve, readline_line fits]
  dsimp only
  rw [if_neg (line_filled line), if_neg filled, if_pos auth, secret]
  dsimp only
  rw [readline_line nextFits]
  dsimp only
  rw [if_neg (line_filled next)]
  rfl

/-- Blank lines get the format error of a swallowed line too. -/
theorem answer_blank (moment : Moment) {line : Bytes} (quiet : blank line) (submitter : Int) :
    answerLine env sourceIp moment (some submitter) (textOf line) = tcpLineForStatus .badFormat := by
  have empty : textOf line = [] := quiet
  rw [empty]
  rfl

theorem malformed_reply {number : Nat} {line : Bytes} (bad : malformed line) :
    lineReply env sourceIp moments team number line = tcpLineForStatus .badFormat := by
  have opening : flagOpening.isPrefixOf (textOf line) = false := by
    apply Bool.eq_false_iff.mpr
    intro opened
    have whole : flagPrefix <+: textOf line :=
      (List.prefix_append flagPrefix ['{']).trans (List.isPrefixOf_iff_prefix.mp opened)
    have auth : (!flagPrefix.isPrefixOf (textOf line)) = true := bad.2
    rw [List.isPrefixOf_iff_prefix.mpr whole] at auth
    cases auth
  exact if_neg (Bool.eq_false_iff.mp opening)

/-- Spaced streams get their replies; in the others a line is swallowed, and an answer is missing. -/
theorem serve_stream (env : Settings) (lines : List Bytes) {fuel : Nat} (number : Nat)
    (enough : lines.length < fuel) (fits : ∀ line ∈ lines, FitsReader line)
    (mapped : Mapped tcp sourceIp moments team lines) :
    (Spaced lines → serve env tcp sourceIp moments fuel number (streamOf lines) =
      replies env sourceIp moments team number lines) ∧
    (¬Spaced lines → (serve env tcp sourceIp moments fuel number (streamOf lines)).length <
      (replies env sourceIp moments team number lines).length) := by
  induction fuel generalizing number lines with
  | zero => exact absurd enough (Nat.not_lt_zero _)
  | succ fuel ih =>
      cases lines with
      | nil =>
          refine ⟨fun _ => rfl, fun unspaced => absurd ?_ unspaced⟩
          intro front line rest same
          exact absurd same.symm (List.append_ne_nil_of_right_ne_nil _ (List.cons_ne_nil _ _))
      | cons line rest =>
          rw [List.forall_mem_cons] at fits
          have shorter : rest.length < fuel := Nat.lt_of_succ_lt_succ enough
          by_cases quiet : blank line
          · rw [serve_blank fits.1 quiet, replies_blank quiet, spaced_calm fun bad => bad.1 quiet]
            exact ih rest (number + 1) shorter fits.2 (mapped_rest mapped)
          by_cases bad : malformed line
          · by_cases nul : hasNul (textOf line) = true
            · refine ⟨fun spaced => absurd spaced (not_spaced_nul bad nul), fun _ => ?_⟩
              rw [serve_nul fits.1 bad nul, replies_shown quiet]
              exact Nat.succ_pos _
            rw [Bool.not_eq_true] at nul
            cases rest with
            | nil =>
                refine ⟨fun spaced => absurd spaced (not_spaced_end bad), fun _ => ?_⟩
                rw [serve_last fits.1 mapped rfl bad nul, replies_shown quiet]
                exact Nat.succ_pos _
            | cons next rest =>
                rw [List.forall_mem_cons] at fits
                have less : rest.length < fuel := Nat.lt_of_succ_lt shorter
                obtain ⟨same, missing⟩ :=
                  ih rest (number + 2) less fits.2.2 (mapped_rest (mapped_rest mapped))
                rw [serve_swallows fits.1 fits.2.1 mapped bad nul, replies_shown quiet]
                by_cases nextQuiet : blank next
                · rw [spaced_blank nul nextQuiet, answer_blank _ nextQuiet, malformed_reply bad,
                    replies_blank nextQuiet]
                  exact ⟨fun spaced => congrArg _ (same spaced),
                    fun unspaced => Nat.succ_lt_succ (missing unspaced)⟩
                · refine ⟨fun spaced => absurd spaced (not_spaced_two bad nextQuiet), fun _ => ?_⟩
                  have two : number + 1 + 1 = number + 2 := rfl
                  rw [replies_shown nextQuiet, two]
                  simp only [List.length_cons]
                  by_cases spaced : Spaced rest
                  · rw [same spaced]
                    omega
                  · have fewer := missing spaced
                    omega
          · obtain ⟨same, missing⟩ := ih rest (number + 1) shorter fits.2 (mapped_rest mapped)
            rw [serve_flag fits.1 mapped quiet bad, replies_shown quiet, spaced_calm bad]
            exact ⟨fun spaced => congrArg _ (same spaced),
              fun unspaced => Nat.succ_lt_succ (missing unspaced)⟩

theorem stream_length (lines : List Bytes) : lines.length ≤ (streamOf lines).length := by
  induction lines with
  | nil => exact Nat.le_refl 0
  | cons line rest ih =>
      rw [streamOf, List.flatMap_cons, List.length_append, List.length_append, List.length_cons]
      have tail : rest.length ≤ (rest.flatMap fun line => line ++ [10]).length := ih
      rw [List.length_singleton]
      omega

end Stream

/-- The answers are those of the non-blank lines, one for each and in order, exactly when every
line that is no front of a flag is without NUL and followed by a blank one. -/
theorem replies_in_step_iff (env : Settings) (tcp : TcpSettings) (sourceIp : String)
    (moments : Nat → Moment) (team : Nat → Int) (lines : List Bytes)
    (fits : ∀ line ∈ lines, FitsReader line) (mapped : Mapped tcp sourceIp moments team lines) :
    handleClient env tcp sourceIp moments (streamOf lines) = replies env sourceIp moments team 0 lines ↔
      Spaced lines := by
  obtain ⟨same, missing⟩ := serve_stream env lines 0 (Nat.lt_succ_of_le (stream_length lines)) fits mapped
  constructor
  · intro answered
    by_contra unspaced
    have fewer := missing unspaced
    rw [show serve env tcp sourceIp moments _ 0 (streamOf lines) = _ from answered] at fewer
    exact absurd fewer (lt_irrefl _)
  · exact same

/-! Alpha's client, by its address, on the platform's first tick. -/

def alphaTcp : TcpSettings where
  submitIpMap := "alpha=10.0.0.1".toList

def firstMoment : Nat → Moment := fun _ => ⟨afterFirstTick.db, afterFirstTick.db, 1000000000⟩

/-- A line of rubbish with a blank line behind it, then the flag of team 2. -/
def rubbishBlankFlag : List Bytes := [utf8 "rubbish", [], utf8 (String.ofList betaFlag)]

/-- A line of rubbish, then the flag of team 2. -/
def rubbishThenFlag : List Bytes := [utf8 "rubbish", utf8 (String.ofList betaFlag)]

theorem alpha_mapped {lines : List Bytes}
    (noToken : ∀ line ∈ lines, resolveSubmitterByToken afterFirstTick.db (textOf line) = .ok none) :
    Mapped alphaTcp "10.0.0.1" firstMoment (fun _ => 1) lines := by
  refine ⟨fun _ => ?_, fun _ line member id => ?_⟩
  · show resolveSubmitterByIp alphaTcp afterFirstTick.db "10.0.0.1".toList = some 1
    decide +kernel
  · rw [show (firstMoment _).lookup = afterFirstTick.db from rfl, noToken line member]
    exact nofun

theorem alpha_flag_answered :
    handleClient sampleSettings alphaTcp "10.0.0.1" firstMoment (streamOf rubbishBlankFlag) =
      replies sampleSettings "10.0.0.1" firstMoment (fun _ => 1) 0 rubbishBlankFlag := by
  refine (replies_in_step_iff sampleSettings alphaTcp "10.0.0.1" firstMoment (fun _ => 1)
    rubbishBlankFlag ?_ ?_).mpr ?_
  · decide +kernel
  · exact alpha_mapped (by decide +kernel)
  · have plain : hasNul (textOf (utf8 "rubbish")) = false := by decide +kernel
    have empty : blank [] := by
      unfold blank
      decide +kernel
    have last : ¬malformed (utf8 (String.ofList betaFlag)) := by
      unfold malformed
      decide +kernel
    rw [rubbishBlankFlag, spaced_blank plain empty, spaced_calm last]
    intro front line rest same
    exact absurd same.symm (List.append_ne_nil_of_right_ne_nil _ (List.cons_ne_nil _ _))

/-- One answer for two lines: the flag is accepted as the answer to the rubbish before it. -/
theorem rubbish_swallows_turn : (∀ line ∈ rubbishThenFlag, FitsReader line) ∧
    Mapped alphaTcp "10.0.0.1" firstMoment (fun _ => 1) rubbishThenFlag ∧
    handleClient sampleSettings alphaTcp "10.0.0.1" firstMoment (streamOf rubbishThenFlag) = ["[OK]\n"] ∧
    replies sampleSettings "10.0.0.1" firstMoment (fun _ => 1) 0 rubbishThenFlag =
      ["[ERR] Invalid flag (wrong format)\n", "[OK]\n"] :=
  ⟨by decide +kernel, alpha_mapped (by decide +kernel), by decide +kernel⟩

end KosSim.TcpFlagServer
