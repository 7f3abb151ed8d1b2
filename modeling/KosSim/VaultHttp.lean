import KosSim.Library.Dict
import KosSim.VaultJson
import Mathlib.Algebra.Group.Nat.Defs

/-!
http.cpp: VaultGrid's HTTP server. The loop over recv looks at the buffer after every chunk and stops
when the head and as many bytes as its first `content-length:` names are there; what is in the
buffer then is parsed line by line.
-/

namespace KosSim.VaultHttp
open Library Library.Json
open VaultJson (isspace)

/-! The source. -/

structure HttpRequest where
  method : Bytes
  path : Bytes
  query : Dict Bytes Bytes
  headers : Dict Bytes Bytes
  body : Bytes
  deriving DecidableEq

structure HttpResponse where
  status : Nat
  type : Bytes
  body : Bytes
  extraHeaders : List (Bytes × Bytes)
  deriving DecidableEq

def tolower (byte : UInt8) : UInt8 := if 65 ≤ byte && byte ≤ 90 then byte + 32 else byte

def trim (s : Bytes) : Bytes := ((s.dropWhile isspace).reverse.dropWhile isspace).reverse

/-- std::strtol(hex, &end, 16), where it ends at the terminator. -/
def strtol16 (hex : Bytes) : Option Int :=
  let text := hex.takeWhile (· ≠ 0)
  let number := text.dropWhile isspace
  let digits := if number.head? = some 45 ∨ number.head? = some 43 then number.tail else number
  if text = [] then some 0
  else
    match digits.mapM hexValue with
    | some (v :: vs) =>
        let value := (v :: vs).foldl (fun (n : Nat) v => 16 * n + v) 0
        some (if number.head? = some 45 then -(value : Int) else value)
    | _ => none

def unplus (c : UInt8) : UInt8 := if c = 43 then 32 else c

def urlDecode : Bytes → Bytes
  | [] => []
  | [c] => [unplus c]
  | [c, d] => [unplus c, unplus d]
  | c :: d :: e :: rest =>
      match if c = 37 then strtol16 [d, e] else none with
      | some value => UInt8.ofNat (value % 256).toNat :: urlDecode rest
      | none => unplus c :: urlDecode (d :: e :: rest)

/-- std::getline; none where nothing is left. -/
def getline (stop : UInt8) (stream : Bytes) : Option (Bytes × Bytes) :=
  if stream = [] then none else some ((cutAt [stop] stream).getD (stream, []))

/-- Each item takes a byte at least, so the fuel suffices. -/
def queryLoop : Nat → Bytes → Dict Bytes Bytes → Dict Bytes Bytes
  | 0, _, query => query
  | fuel + 1, stream, query =>
      match getline 38 stream with
      | none => query
      | some (item, rest) =>
          let (k, v) := (cutAt [61] item).getD (item, [])
          queryLoop fuel rest (query.set (urlDecode k) (urlDecode v))

def chomp (line : Bytes) : Bytes := if line.getLast? = some 13 then line.dropLast else line

def addHeader (headers : Dict Bytes Bytes) (line : Bytes) : Dict Bytes Bytes :=
  match cutAt [58] line with
  | none => headers
  | some (key, value) => headers.set (key.map tolower) (trim value)

/-- The loop over the header lines, and the bytes behind the empty one. -/
def headerLoop : Nat → Bytes → Dict Bytes Bytes → Dict Bytes Bytes × Bytes
  | 0, stream, headers => (headers, stream)
  | fuel + 1, stream, headers =>
      match getline 10 stream with
      | none => (headers, [])
      | some (line, rest) =>
          if line = [13] ∨
            line = [] then (headers, rest) else headerLoop fuel rest (addHeader headers (chomp line))

/-- stream >> word -/
def nextWord (stream : Bytes) : Bytes × Bytes :=
  let text := stream.dropWhile isspace
  (text.takeWhile fun c => !isspace c, text.dropWhile fun c => !isspace c)

def parseRequest (raw : Bytes) : HttpRequest :=
  let (line, stream) := (getline 10 raw).getD ([], [])
  let (method, behind) := nextWord (chomp line)
  let target := (nextWord behind).1
  let (path, query) := match cutAt [63] target with
    | none => (target, Dict.empty)
    | some (path, query) => (path, queryLoop query.length query Dict.empty)
  let (headers, body) := headerLoop (stream.length + 1) stream Dict.empty
  { method, path, query, headers, body }

/-- A minus sign negates the number modulo 2^64. -/
def unsignedLong (negative : Bool) (digits : Bytes) : Option Nat :=
  if digits = [] ∨ 2 ^ 64 ≤ natOf digits then none
  else some (if negative then (2 ^ 64 - natOf digits) % 2 ^ 64 else natOf digits)

/-- std::stoul; none where it throws. -/
def stoul (text : Bytes) : Option Nat :=
  let number := text.dropWhile isspace
  let unsigned := if number.head? = some 45 ∨ number.head? = some 43 then number.tail else number
  unsignedLong (number.head? = some 45) (unsigned.takeWhile isDigit)

def blankLine : Bytes := [13, 10, 13, 10]

/-- content_len for the text before the blank line; none where stoul throws. -/
def contentLen (head : Bytes) : Option Nat :=
  match cutAt (utf8 "content-length:") (head.map tolower) with
  | none => some 0
  | some (_, behind) => stoul (trim (((cutAt [13, 10] behind).map Prod.fst).getD behind))

/-- One pass of the loop of handle_client over the bytes so far; none where an exception leaves it. -/
def complete (raw : Bytes) : Option Bool :=
  match cutAt blankLine raw with
  | none => some false
  | some (head, _) => (contentLen head).map fun len => (head.length + 4 + len) % 2 ^ 64 ≤ raw.length

def recvLoop (raw : Bytes) : List Bytes → Option Bytes
  | [] => some raw
  | chunk :: rest =>
      match complete (raw ++ chunk) with
      | none => none
      | some true => some (raw ++ chunk)
      | some false => recvLoop (raw ++ chunk) rest

/-- What handle_client hands to route_request; none where the thread's exception is not caught. -/
def handedRequest (chunks : List Bytes) : Option HttpRequest := (recvLoop [] chunks).map parseRequest

def jsonEscape (text : Bytes) : Bytes :=
  text.flatMap fun c =>
    if c = quote then [backslash, quote]
    else if c = backslash then [backslash, backslash]
    else if c = 10 then [backslash, 110]
    else if c = 13 then [backslash, 114]
    else if c = 9 then [backslash, 116]
    else [c]

def statusText (status : Nat) : Bytes :=
  if status = 200 then utf8 "OK" else if status = 403 then utf8 "Forbidden"
  else if status = 404 then utf8 "Not Found" else utf8 "Error"

def crlf : Bytes := [13, 10]

def responseHead (res : HttpResponse) : Bytes :=
  utf8 "HTTP/1.1 " ++ digitBytes res.status ++ utf8 " " ++ statusText res.status ++ crlf ++
    utf8 "content-type: " ++ res.type ++ crlf ++
    utf8 "content-length: " ++ digitBytes res.body.length ++ crlf ++
    utf8 "connection: close" ++ crlf ++ crlf

/-- The bytes sent. route_request is a parameter: a response or the text of the exception it throws. -/
def handleClient (routeRequest : HttpRequest → Except Bytes HttpResponse) (chunks : List Bytes) :
    Option Bytes :=
  (handedRequest chunks).map fun req =>
    let res := match routeRequest req with
      | .ok res => res
      | .error what =>
          ⟨500, utf8 "application/json", utf8 "\x7b\"error\":\"" ++ jsonEscape what ++ utf8 "\"\x7d", []⟩
    responseHead res ++ res.body

/-! Well-formed requests. -/

/-- Neither a blank nor a control byte. -/
def Visible (c : UInt8) : Prop := 33 ≤ c ∧ c ≠ 127

instance : DecidablePred Visible := fun c => inferInstanceAs (Decidable (33 ≤ c ∧ c ≠ 127))

def headerLine (header : Bytes × Bytes) : Bytes := header.1 ++ 58 :: header.2

structure Request where
  method : Bytes
  target : Bytes
  version : Bytes
  headers : List (Bytes × Bytes)
  body : Bytes
  methodFilled : method ≠ []
  methodText : ∀ c ∈ method, Visible c
  targetFilled : target ≠ []
  targetText : ∀ c ∈ target, Visible c
  versionText : ∀ c ∈ version, Visible c
  names : ∀ header ∈ headers, header.1 ≠ [] ∧ ∀ c ∈ header.1, Visible c ∧ c ≠ 58
  values : ∀ header ∈ headers, ∀ c ∈ header.2, Visible c ∨ c = 32 ∨ c = 9
  /-- Every Content-Length is the decimal length of the body. -/
  sized : ∀ header ∈ headers, header.1.map tolower = utf8 "content-length" →
    trim header.2 ≠ [] ∧ (∀ c ∈ trim header.2, isDigit c = true) ∧ natOf (trim header.2) = body.length
  unsized : (∀ header ∈ headers, header.1.map tolower ≠ utf8 "content-length") → body = []

/-- GET without headers and body. -/
def bareGet (target : Bytes) (filled : target ≠ []) (text : ∀ c ∈ target, Visible c) : Request where
  method := utf8 "GET"
  target := target
  version := utf8 "HTTP/1.1"
  headers := []
  body := []
  methodFilled := by decide
  methodText := by decide
  targetFilled := filled
  targetText := text
  versionText := by decide
  names := nofun
  values := nofun
  sized := nofun
  unsized := fun _ => rfl

namespace Request
variable (r : Request)

def requestLine : Bytes := r.method ++ 32 :: (r.target ++ 32 :: r.version)

def lines : List Bytes := r.requestLine :: r.headers.map headerLine

/-- What a client sends for the request. -/
def bytes : Bytes := r.lines.flatMap (· ++ crlf) ++ crlf ++ r.body

/-- The text before the empty line. -/
def head : Bytes := crlf.intercalate r.lines

def path : Bytes := r.target.takeWhile fun c => decide (c ≠ 63)

def query : Dict Bytes Bytes :=
  match cutAt [63] r.target with
  | none => Dict.empty
  | some (_, query) => queryLoop query.length query Dict.empty

def headerTable : Dict Bytes Bytes :=
  r.headers.foldl (fun table header => table.set (header.1.map tolower) (trim header.2)) Dict.empty

end Request

theorem visible_apart {c : UInt8} (visible : Visible c) : c ≠ 13 ∧ c ≠ 10 ∧ isspace c = false := by
  have low : 33 ≤ c.toNat := UInt8.le_iff_toNat_le.mp visible.1
  refine ⟨?_, ?_, ?_⟩
  · rintro rfl
    exact absurd low (by decide)
  · rintro rfl
    exact absurd low (by decide)
  · exact VaultJson.isspace_above low

/-- A line of the head. -/
structure HeadLine (line : Bytes) : Prop where
  filled : line ≠ []
  noReturn : (13 : UInt8) ∉ line
  noFeed : (10 : UInt8) ∉ line

theorem visible_line {line : Bytes} (filled : line ≠ [])
    (text : ∀ c ∈ line, Visible c ∨ c = 32 ∨ c = 9) : HeadLine line := by
  have apart (c : UInt8) (member : c ∈ line) : c ≠ 13 ∧ c ≠ 10 := by
    rcases text c member with visible | rfl | rfl
    · exact ⟨(visible_apart visible).1, (visible_apart visible).2.1⟩
    · exact ⟨by decide, by decide⟩
    · exact ⟨by decide, by decide⟩
  exact ⟨filled, fun member => (apart 13 member).1 rfl, fun member => (apart 10 member).2 rfl⟩

section Lines
variable (r : Request)

theorem request_head_line : HeadLine r.requestLine := by
  refine visible_line ?_ fun c member => ?_
  · exact fun none => r.methodFilled (List.append_eq_nil_iff.mp none).1
  · rw [Request.requestLine, List.mem_append, List.mem_cons, List.mem_append, List.mem_cons] at member
    rcases member with method | rfl | target | rfl | version
    · exact .inl (r.methodText c method)
    · exact .inr (.inl rfl)
    · exact .inl (r.targetText c target)
    · exact .inr (.inl rfl)
    · exact .inl (r.versionText c version)

theorem header_head_line {header : Bytes × Bytes} (member : header ∈ r.headers) :
    HeadLine (headerLine header) := by
  refine visible_line ?_ fun c inside => ?_
  · exact fun none => (r.names header member).1 (List.append_eq_nil_iff.mp none).1
  · rw [headerLine, List.mem_append, List.mem_cons] at inside
    rcases inside with name | rfl | value
    · exact .inl ((r.names header member).2 c name).1
    · exact .inl ⟨by decide, by decide⟩
    · exact r.values header member c value

theorem head_lines : ∀ line ∈ r.lines, HeadLine line := by
  intro line member
  rcases List.mem_cons.mp member with rfl | header
  · exact request_head_line r
  · obtain ⟨header, inside, rfl⟩ := List.mem_map.mp header
    exact header_head_line r inside

end Lines

/-! The head. -/

theorem intercalate_front (line : Bytes) (lines : List Bytes) :
    ∃ more, crlf.intercalate (line :: lines) = line ++ more := by
  cases lines with
  | nil => exact ⟨[], by rw [List.intercalate_singleton, List.append_nil]⟩
  | cons next others => exact ⟨_, by rw [List.intercalate_cons_cons, List.append_assoc]⟩

/-- A line end before a further line is not the blank one. -/
theorem blank_apart {line : Bytes} (good : HeadLine line) (rest : Bytes) :
    ¬blankLine <+: 13 :: 10 :: (line ++ rest) := by
  intro front
  cases line with
  | nil => exact good.filled rfl
  | cons c more =>
      have third :=
        (List.cons_prefix_cons.mp (List.cons_prefix_cons.mp (List.cons_prefix_cons.mp front).2).2).1
      have free := good.noReturn
      rw [← third] at free
      exact free List.mem_cons_self

theorem cut_head {line : Bytes} {lines : List Bytes}
    (good : ∀ other ∈ line :: lines, HeadLine other) (rest : Bytes) :
    cutAt blankLine (crlf.intercalate (line :: lines) ++ (blankLine ++ rest)) =
      some (crlf.intercalate (line :: lines), rest) := by
  have free := (good line List.mem_cons_self).noReturn
  induction lines generalizing line with
  | nil =>
      have here : cutAt (13 :: [10, 13, 10]) (blankLine ++ rest) = some ([], rest) :=
        cut_here blankLine rest
      rw [List.intercalate_singleton, blankLine, cut_apart free]
      rw [blankLine] at here
      rw [here]
      simp only [Option.map_some, List.append_nil]
  | cons next more ih =>
      have nextGood := good next (List.mem_cons_of_mem _ List.mem_cons_self)
      have later := ih (fun other member => good other (List.mem_cons_of_mem _ member)) nextGood.noReturn
      obtain ⟨tail, front⟩ := intercalate_front next more
      have parts : crlf.intercalate (line :: next :: more) ++ (blankLine ++ rest) =
          line ++ 13 :: ([10] ++ (crlf.intercalate (next :: more) ++ (blankLine ++ rest))) := by
        rw [List.intercalate_cons_cons, crlf]
        simp only [List.append_assoc, List.cons_append, List.nil_append]
      have other :
          ¬blankLine <+: 13 :: ([10] ++ (crlf.intercalate (next :: more) ++ (blankLine ++ rest))) := by
        rw [front, List.append_assoc]
        exact blank_apart nextGood _
      have feed : (13 : UInt8) ∉ [(10 : UInt8)] := by decide
      rw [blankLine] at other later parts ⊢
      rw [parts, cut_apart free, cut_later other, cut_apart feed, later, List.intercalate_cons_cons, crlf]
      simp only [Option.map_some, List.append_assoc, List.cons_append, List.nil_append]

section Head
variable (r : Request)

theorem head_text (body : Bytes) :
    r.head ++ (blankLine ++ body) = r.lines.flatMap (· ++ crlf) ++ crlf ++ body := by
  have ends (line : Bytes) (lines : List Bytes) :
      (line :: lines).flatMap (· ++ crlf) = crlf.intercalate (line :: lines) ++ crlf := by
    induction lines generalizing line with
    | nil => rw [List.flatMap_cons, List.flatMap_nil, List.append_nil, List.intercalate_singleton]
    | cons next more ih =>
        rw [List.flatMap_cons, ih next, List.intercalate_cons_cons]
        simp only [List.append_assoc]
  rw [Request.head, Request.lines, ends]
  simp only [List.append_assoc]
  rfl

theorem bytes_head : r.bytes = r.head ++ (blankLine ++ r.body) := (head_text r r.body).symm

theorem cut_request (extra : Bytes) :
    cutAt blankLine (r.bytes ++ extra) = some (r.head, r.body ++ extra) := by
  rw [bytes_head]
  simp only [List.append_assoc]
  exact cut_head (head_lines r) _

end Head

/-! The parser. -/

theorem getline_line {line : Bytes} (free : (10 : UInt8) ∉ line) (rest : Bytes) :
    getline 10 (line ++ crlf ++ rest) = some (line ++ [13], rest) := by
  have whole : line ++ crlf ++ rest = line ++ [13] ++ 10 :: rest := by
    simp only [crlf, List.append_assoc, List.cons_append, List.nil_append]
  have noFeed : (10 : UInt8) ∉ line ++ [13] := by
    rw [List.mem_append]
    rintro (inside | last)
    · exact free inside
    · exact absurd last (by decide)
  rw [getline, whole, if_neg (by simp), cut_mark noFeed]
  rfl

theorem chomp_return (line : Bytes) : chomp (line ++ [13]) = line := by
  rw [chomp, List.getLast?_concat, if_pos rfl, List.dropLast_concat]

theorem next_word {word rest : Bytes} (filled : word ≠ []) (text : ∀ c ∈ word, Visible c)
    (ends : ∀ c ∈ rest.head?, isspace c = true) : nextWord (word ++ rest) = (word, rest) := by
  have kept : ∀ c ∈ word, (!isspace c) = true :=
    fun c member => by rw [(visible_apart (text c member)).2.2]; rfl
  have start : (word ++ rest).dropWhile isspace = word ++ rest := by
    cases word with
    | nil => exact absurd rfl filled
    | cons c more =>
        exact List.dropWhile_cons_of_neg (by rw [(visible_apart (text c List.mem_cons_self)).2.2]; decide)
  have stop : rest.takeWhile (fun c => !isspace c) = [] ∧ rest.dropWhile (fun c => !isspace c) = rest := by
    cases rest with
    | nil => exact ⟨rfl, rfl⟩
    | cons c more =>
        have blank : ¬(!isspace c) = true := by rw [ends c rfl]; decide
        exact ⟨List.takeWhile_cons_of_neg blank, List.dropWhile_cons_of_neg blank⟩
  rw [nextWord, start, List.takeWhile_append_of_pos kept, List.dropWhile_append_of_pos kept, stop.1,
    stop.2, List.append_nil]

theorem next_word_blank (text : Bytes) : nextWord (32 :: text) = nextWord text := rfl

theorem add_header {header : Bytes × Bytes} (name : ∀ c ∈ header.1, c ≠ 58) (table : Dict Bytes Bytes) :
    addHeader table (headerLine header) = table.set (header.1.map tolower) (trim header.2) := by
  have free : (58 : UInt8) ∉ header.1 := fun member => name 58 member rfl
  rw [addHeader, headerLine, cut_mark free]

theorem header_loop {headers : List (Bytes × Bytes)}
    (good : ∀ header ∈ headers, HeadLine (headerLine header))
    (names : ∀ header ∈ headers, ∀ c ∈ header.1, c ≠ 58) (body : Bytes) {fuel : Nat}
    (table : Dict Bytes Bytes) (enough : headers.length < fuel) :
    headerLoop fuel ((headers.map headerLine).flatMap (· ++ crlf) ++ crlf ++ body) table =
      (headers.foldl (fun table header => table.set (header.1.map tolower) (trim header.2)) table,
        body) := by
  induction headers generalizing fuel table with
  | nil =>
      cases fuel with
      | zero => exact absurd enough (Nat.not_lt_zero _)
      | succ fuel =>
          have blank : getline 10 ([] ++ crlf ++ body) = some ([13], body) :=
            getline_line List.not_mem_nil body
          rw [headerLoop, List.map_nil, List.flatMap_nil, blank]
          rfl
  | cons header rest ih =>
      cases fuel with
      | zero => exact absurd enough (Nat.not_lt_zero _)
      | succ fuel =>
          have line := good header List.mem_cons_self
          have other : ¬(headerLine header ++ [13] = [13] ∨ headerLine header ++ [13] = []) := by
            rintro (blank | none)
            · exact line.filled (List.append_left_eq_self.mp blank)
            · exact absurd none (by simp)
          have parts : (headerLine header :: rest.map headerLine).flatMap (· ++ crlf) ++ crlf ++ body =
              headerLine header ++ crlf ++ ((rest.map headerLine).flatMap (· ++ crlf) ++ crlf ++ body) := by
            rw [List.flatMap_cons]
            simp only [List.append_assoc]
          rw [headerLoop, List.map_cons, parts, getline_line line.noFeed]
          dsimp only
          rw [if_neg other, chomp_return, add_header (names header List.mem_cons_self),
            ih (fun other member => good other (List.mem_cons_of_mem _ member))
              (fun other member => names other (List.mem_cons_of_mem _ member))
              _ (Nat.lt_of_succ_lt_succ enough)]
          rfl

theorem lines_length (lines : List Bytes) : lines.length ≤ (lines.flatMap (· ++ crlf)).length := by
  induction lines with
  | nil => exact Nat.le_refl 0
  | cons line rest ih =>
      rw [List.flatMap_cons, List.length_append, List.length_append, List.length_cons]
      have two : crlf.length = 2 := rfl
      omega

/-- The request is parsed from its own bytes, except that the body is whatever stands behind the
empty line. -/
theorem parse_well_formed (r : Request) (body : Bytes) :
    parseRequest (r.head ++ (blankLine ++ body)) = ⟨r.method, r.path, r.query, r.headerTable, body⟩ := by
  have parts : r.head ++ (blankLine ++ body) =
      r.requestLine ++ crlf ++ ((r.headers.map headerLine).flatMap (· ++ crlf) ++ crlf ++ body) := by
    rw [head_text, Request.lines, List.flatMap_cons]
    simp only [List.append_assoc]
  have first :=
    getline_line (request_head_line r).noFeed ((r.headers.map headerLine).flatMap (· ++ crlf) ++
      crlf ++ body)
  have method : nextWord r.requestLine = (r.method, 32 :: (r.target ++ 32 :: r.version)) :=
    next_word r.methodFilled r.methodText fun c same => by rw [← Option.some.inj same]; rfl
  have target : nextWord (32 :: (r.target ++ 32 :: r.version)) = (r.target, 32 :: r.version) :=
    (next_word_blank _).trans (next_word r.targetFilled r.targetText fun c same =>
      by rw [← Option.some.inj same]; rfl)
  have enough : r.headers.length < ((r.headers.map headerLine).flatMap (· ++ crlf) ++ crlf ++
      body).length + 1 := by
    have short := lines_length (r.headers.map headerLine)
    rw [List.length_map] at short
    rw [List.length_append, List.length_append]
    omega
  have table := header_loop (fun header member => header_head_line r member)
    (fun header member c inside => ((r.names header member).2 c inside).2) body Dict.empty enough
  have path := cut_take_while 63 r.target
  rw [parseRequest, parts, first]
  simp only [Option.getD_some, chomp_return, method, target, table]
  cases found : cutAt [63] r.target with
  | none =>
      rw [found] at path
      rw [Request.path, Request.query, found, ← path]
      rfl
  | some cut =>
      rw [found] at path
      rw [Request.path, Request.query, found, ← path]
      rfl

/-! The loop over recv. -/

/-- The size at which handle_client stops reading. -/
def enough (head : Bytes) (len : Nat) : Nat := max (head.length + 4) ((head.length + 4 + len) % 2 ^ 64)

section Loop
variable {stream : Bytes}

theorem complete_headless (headless : cutAt blankLine stream = none) {raw : Bytes}
    (front : raw <+: stream) :
    complete raw = some false := by
  obtain ⟨more, rfl⟩ := front
  rw [complete]
  cases found : cutAt blankLine raw with
  | none => rfl
  | some parts =>
      obtain ⟨before, after⟩ := parts
      rw [cut_extends found more] at headless
      cases headless

theorem complete_front {head body : Bytes} (found : cutAt blankLine stream = some (head, body))
    {raw : Bytes} (front : raw <+: stream) : complete raw =
      if head.length + 4 ≤ raw.length then
        (contentLen head).map fun len => decide ((head.length + 4 + len) % 2 ^ 64 ≤ raw.length)
      else some false := by
  obtain ⟨more, rfl⟩ := front
  rw [complete, cut_prefix found, show blankLine.length = 4 from rfl]
  by_cases reach : head.length + 4 ≤ raw.length
  · rw [if_pos reach, if_pos reach]
  · rw [if_neg reach, if_neg reach]

theorem complete_enough {head body : Bytes} {len : Nat} (found : cutAt blankLine stream = some (head, body))
    (stated : contentLen head = some len) {raw : Bytes} (front : raw <+: stream) :
    complete raw = some (decide (enough head len ≤ raw.length)) := by
  rw [complete_front found front, stated]
  by_cases reach : head.length + 4 ≤ raw.length
  · rw [if_pos reach, Option.map_some, enough]
    simp only [Nat.max_le, reach, true_and]
  · rw [if_neg reach, enough, decide_eq_false fun both => reach (Nat.max_le.mp both).1]

theorem recv_headless (headless : cutAt blankLine stream = none) {raw : Bytes} {chunks : List Bytes}
    (whole : raw ++ chunks.flatten = stream) : recvLoop raw chunks = some stream := by
  induction chunks generalizing raw with
  | nil => rw [recvLoop, ← whole, List.flatten_nil, List.append_nil]
  | cons chunk rest ih =>
      rw [List.flatten_cons, ← List.append_assoc] at whole
      rw [recvLoop, complete_headless headless ⟨rest.flatten, whole⟩]
      exact ih whole

theorem recv_throws {head body : Bytes} (found : cutAt blankLine stream = some (head, body))
    (broken : contentLen head = none) {raw : Bytes} {chunks : List Bytes}
    (short : raw.length < head.length + 4) (whole : raw ++ chunks.flatten = stream) :
    recvLoop raw chunks = none := by
  induction chunks generalizing raw with
  | nil =>
      have size := congrArg List.length (cut_parts found)
      rw [← whole, List.flatten_nil, List.append_nil, List.length_append, List.length_append,
        show blankLine.length = 4 from rfl] at size
      omega
  | cons chunk rest ih =>
      rw [List.flatten_cons, ← List.append_assoc] at whole
      rw [recvLoop, complete_front found ⟨rest.flatten, whole⟩, broken]
      by_cases reach : head.length + 4 ≤ (raw ++ chunk).length
      · rw [if_pos reach]
        rfl
      · rw [if_neg reach]
        exact ih (Nat.lt_of_not_le reach) whole

/-- The loop takes chunks until there is enough, or all of them. -/
theorem recv_stops {head body : Bytes} {len : Nat}
    (found : cutAt blankLine stream = some (head, body)) (stated : contentLen head = some len)
    {raw : Bytes} {chunks : List Bytes} (short : raw.length < enough head len)
    (whole : raw ++ chunks.flatten = stream) :
    ∃ count, recvLoop raw chunks = some (raw ++ (chunks.take (count + 1)).flatten) ∧
      (raw ++ (chunks.take count).flatten).length < enough head len ∧
      (enough head len ≤ (raw ++ (chunks.take (count + 1)).flatten).length ∨
        chunks.length ≤ count + 1) := by
  induction chunks generalizing raw with
  | nil =>
      refine ⟨0, ?_, ?_, .inr (Nat.zero_le _)⟩
      · rw [recvLoop, List.take_nil, List.flatten_nil, List.append_nil]
      · rw [List.take_nil, List.flatten_nil, List.append_nil]
        exact short
  | cons chunk rest ih =>
      rw [List.flatten_cons, ← List.append_assoc] at whole
      have front : raw ++ chunk <+: stream := ⟨rest.flatten, whole⟩
      have look := complete_enough found stated front
      by_cases reach : enough head len ≤ (raw ++ chunk).length
      · rw [decide_eq_true reach] at look
        refine ⟨0, ?_, ?_, .inl ?_⟩
        · rw [recvLoop, look, List.take_succ_cons, List.take_zero, List.flatten_singleton]
        · rw [List.take_zero, List.flatten_nil, List.append_nil]
          exact short
        · rw [List.take_succ_cons, List.take_zero, List.flatten_singleton]
          exact reach
      · rw [decide_eq_false reach] at look
        obtain ⟨count, taken, before, after⟩ := ih (Nat.lt_of_not_le reach) whole
        have shift (n : Nat) : raw ++ ((chunk :: rest).take (n + 1)).flatten = raw ++ chunk ++
            (rest.take n).flatten := by
          rw [List.take_succ_cons, List.flatten_cons, List.append_assoc]
        refine ⟨count + 1, ?_, ?_, ?_⟩
        · rw [recvLoop, look, shift]
          exact taken
        · rw [shift]
          exact before
        · rw [shift, List.length_cons]
          exact after.imp_right Nat.succ_le_succ

end Loop

/-! Streams. -/

/-- How recv may deliver the stream. -/
def Chunking (stream : Bytes) (chunks : List Bytes) : Prop :=
  chunks.flatten = stream ∧ ∀ chunk ∈ chunks, chunk ≠ [] ∧ chunk.length ≤ 4096

def Handed (req : HttpRequest) (r : Request) : Prop :=
  req.method = r.method ∧ req.path = r.path ∧ req.headers = r.headerTable ∧ req.body = r.body

/-- No exception escapes, and a well-formed request at the front of the stream is handed over. -/
def ReadCorrectly (stream : Bytes) : Prop :=
  ∀ chunks, Chunking stream chunks → ∃ req, handedRequest chunks = some req ∧
    ∀ (r : Request) (extra : Bytes), stream = r.bytes ++ extra → Handed req r

theorem bytes_length (r : Request) : r.bytes.length = r.head.length + 4 + r.body.length := by
  rw [bytes_head, List.length_append, List.length_append, show blankLine.length = 4 from rfl, Nat.add_assoc]

theorem content_len_bound {head : Bytes} {len : Nat} (stated : contentLen head = some len) :
    len < 2 ^ 64 := by
  have bound {negative : Bool} {digits : Bytes} {n : Nat}
      (read : unsignedLong negative digits = some n) : n < 2 ^ 64 := by
    by_cases bad : digits = [] ∨ 2 ^ 64 ≤ natOf digits
    · rw [unsignedLong, if_pos bad] at read
      cases read
    · rw [unsignedLong, if_neg bad] at read
      rw [← Option.some.inj read]
      split <;> omega
  rw [contentLen] at stated
  cases found : cutAt (utf8 "content-length:") (head.map tolower) with
  | none =>
      rw [found] at stated
      rw [← Option.some.inj stated]
      decide
  | some cut =>
      rw [found] at stated
      exact bound stated

/-- What is handed over has the request's body exactly when as many bytes as the request has were read. -/
theorem handed_iff {r : Request} {extra raw : Bytes} (front : raw <+: r.bytes ++ extra)
    (reach : r.head.length + 4 ≤ raw.length) :
    Handed (parseRequest raw) r ↔ raw.length = r.bytes.length := by
  have whole : r.bytes ++ extra = r.head ++ blankLine ++ (r.body ++ extra) := by
    rw [bytes_head]
    simp only [List.append_assoc]
  rw [whole] at front
  obtain ⟨body, parts⟩ : r.head ++ blankLine <+: raw :=
    List.prefix_of_prefix_length_le (List.prefix_append _ _) front (by rw [List.length_append]; exact reach)
  rw [← parts] at front ⊢
  have bodies := List.prefix_append_right_inj _ |>.mp front
  have parsed := parse_well_formed r body
  rw [← List.append_assoc] at parsed
  rw [parsed, bytes_length, List.length_append, List.length_append, show blankLine.length = 4 from rfl,
    Nat.add_left_cancel_iff]
  constructor
  · intro handed
    exact congrArg List.length handed.2.2.2
  · intro size
    have same : body = r.body :=
      (List.prefix_of_prefix_length_le bodies (List.prefix_append _ _)
        (Nat.le_of_eq size)).eq_of_length size
    exact ⟨rfl, rfl, rfl, same⟩

theorem received {stream head rest : Bytes} {len : Nat}
    (found : cutAt blankLine stream = some (head, rest)) (stated : contentLen head = some len)
    {chunks : List Bytes} (whole : chunks.flatten = stream) :
    ∃ count, handedRequest chunks = some (parseRequest (chunks.take (count + 1)).flatten) ∧
      (chunks.take (count + 1)).flatten <+: stream ∧
      head.length + 4 ≤ (chunks.take (count + 1)).flatten.length ∧
      (chunks.take count).flatten.length < enough head len ∧
      (enough head len ≤ (chunks.take (count + 1)).flatten.length ∨
        (chunks.take (count + 1)).flatten = stream) := by
  have positive : ([] : Bytes).length < enough head len :=
    Nat.lt_of_lt_of_le (Nat.succ_pos _) (Nat.le_max_left _ _)
  have from_ : [] ++ chunks.flatten = stream := whole
  obtain ⟨count, taken, before, after⟩ := recv_stops found stated positive from_
  simp only [List.nil_append] at taken before after
  have ends : enough head len ≤ (chunks.take (count + 1)).flatten.length ∨
      (chunks.take (count + 1)).flatten = stream :=
    after.imp_right fun all => by rw [List.take_of_length_le all, whole]
  refine ⟨count, by rw [handedRequest, taken]; rfl, ?_, ?_, before, ends⟩
  · refine ⟨(chunks.drop (count + 1)).flatten, ?_⟩
    rw [← List.flatten_append, List.take_append_drop, whole]
  · rcases ends with many | all
    · exact (Nat.le_max_left _ _).trans many
    · have size := congrArg List.length (cut_parts found)
      rw [List.length_append, List.length_append, show blankLine.length = 4 from rfl] at size
      rw [all]
      omega

section Singles

/-- One byte at a time. -/
def singles (stream : Bytes) : List Bytes := stream.map fun c => [c]

theorem singles_flatten (stream : Bytes) : (singles stream).flatten = stream := by
  induction stream with
  | nil => rfl
  | cons c rest ih => exact congrArg (c :: ·) ih

theorem singles_taken (stream : Bytes) (count : Nat) :
    ((singles stream).take count).flatten = stream.take count := by
  rw [singles, ← List.map_take]
  exact singles_flatten _

theorem singles_small {stream chunk : Bytes} (member : chunk ∈ singles stream) :
    chunk ≠ [] ∧ chunk.length ≤ 4096 := by
  obtain ⟨c, -, rfl⟩ := List.mem_map.mp member
  exact ⟨List.cons_ne_nil _ _, Nat.succ_le_succ (Nat.zero_le _)⟩

theorem singles_chunking (stream : Bytes) : Chunking stream (singles stream) :=
  ⟨singles_flatten stream, fun _ member => singles_small member⟩

/-- One byte at a time, but the bytes around the mark together. -/
def pairedAt (front : Bytes) (one other : UInt8) (back : Bytes) : List Bytes :=
  singles front ++ [one, other] :: singles back

theorem paired_chunking (front : Bytes) (one other : UInt8) (back : Bytes) :
    Chunking (front ++ one :: other :: back) (pairedAt front one other back) := by
  constructor
  · rw [pairedAt, List.flatten_append, List.flatten_cons, singles_flatten, singles_flatten]
    rfl
  · intro chunk member
    rcases List.mem_append.mp member with inFront | inBack
    · exact singles_small inFront
    · rcases List.mem_cons.mp inBack with rfl | later
      · exact ⟨List.cons_ne_nil _ _, by show 2 ≤ 4096; decide⟩
      · exact singles_small later

/-- No chunk of the paired delivery ends between the two bytes. -/
theorem paired_apart (front : Bytes) (one other : UInt8) (back : Bytes) (count : Nat) :
    ((pairedAt front one other back).take count).flatten.length ≠ front.length + 1 := by
  have size : (singles front).length = front.length := List.length_map _
  by_cases early : count ≤ front.length
  · rw [pairedAt, List.take_append_of_le_length (by omega), singles_taken, List.length_take]
    omega
  · obtain ⟨more, rfl⟩ : ∃ more, count = (singles front).length + (more + 1) :=
      ⟨count - front.length - 1, by omega⟩
    rw [pairedAt, List.take_length_add_append, List.take_succ_cons, List.flatten_append,
      List.flatten_cons, singles_flatten, List.length_append, List.length_append]
    simp only [List.length_cons, List.length_nil]
    omega

end Singles

/-- The streams that are read correctly, whatever the chunks: a number can be read behind the head's
first `content-length:`, and a well-formed request is not followed by more bytes and has no body
that is longer than that number says. -/
theorem read_correctly_iff (stream : Bytes) : ReadCorrectly stream ↔
    (∀ head rest, cutAt blankLine stream = some (head, rest) → contentLen head ≠ none) ∧
    ∀ (r : Request) (extra : Bytes), stream = r.bytes ++ extra → extra = [] ∧
      (r.body = [] ∨ ∀ len ∈ contentLen r.head, r.body.length ≤ len ∧
        r.head.length + 4 + len < 2 ^ 64) := by
  constructor
  · intro correct
    have heads : ∀ head rest, cutAt blankLine stream = some (head, rest) → contentLen head ≠ none := by
      intro head rest found broken
      obtain ⟨req, handed, -⟩ := correct _ (singles_chunking stream)
      have short : ([] : Bytes).length < head.length + 4 := Nat.succ_pos _
      rw [handedRequest, recv_throws found broken short (singles_flatten stream)] at handed
      cases handed
    refine ⟨heads, fun r extra whole => ?_⟩
    subst whole
    have found := cut_request r extra
    obtain ⟨len, stated⟩ := Option.ne_none_iff_exists'.mp (heads _ _ found)
    have total := bytes_length r
    have none_ : extra = [] := by
      cases extra with
      | nil => rfl
      | cons other back =>
          -- The last byte of the request and the next one arrive together.
          have filled : r.bytes ≠ [] := fun empty => by
            rw [empty, List.length_nil] at total
            omega
          obtain ⟨front, one, ends⟩ := (List.eq_nil_or_concat' r.bytes).resolve_left filled
          have paired := paired_chunking front one other back
          have parts : front ++ one :: other :: back = r.bytes ++ other :: back := by
            rw [ends, List.append_assoc]
            rfl
          rw [parts] at paired
          obtain ⟨req, handed, reads⟩ := correct _ paired
          obtain ⟨count, same, taken, reach, -, -⟩ := received found stated paired.1
          rw [same] at handed
          have read := reads r _ rfl
          rw [← Option.some.inj handed, handed_iff taken reach, ends, List.length_append] at read
          exact absurd read (paired_apart front one other back _)
    refine ⟨none_, ?_⟩
    by_contra unfit
    rw [not_or] at unfit
    obtain ⟨filled, beyond⟩ := unfit
    rw [stated] at beyond
    have positive := List.length_pos_of_ne_nil filled
    have bound := content_len_bound stated
    have few : enough r.head len < r.bytes.length := by
      have past : ¬(r.body.length ≤ len ∧ r.head.length + 4 + len < 2 ^ 64) := fun fits =>
        beyond fun other same => by
          rw [← Option.some.inj same]
          exact fits
      rw [total, enough, Nat.max_lt]
      omega
    -- One byte at a time the loop stops before the body is whole.
    obtain ⟨req, handed, reads⟩ := correct _ (singles_chunking _)
    obtain ⟨count, same, front, reach, before, -⟩ := received found stated (singles_flatten _)
    rw [same] at handed
    have read := reads r _ rfl
    rw [← Option.some.inj handed, handed_iff front reach, singles_taken, List.length_take] at read
    rw [singles_taken, List.length_take] at before
    omega
  · rintro ⟨heads, fits⟩ chunks chunking
    cases found : cutAt blankLine stream with
    | none =>
        have all : recvLoop [] chunks = some stream := recv_headless found chunking.1
        refine ⟨parseRequest stream, by rw [handedRequest, all]; rfl, fun r extra whole => ?_⟩
        rw [whole, cut_request] at found
        cases found
    | some cut =>
        obtain ⟨head, rest⟩ := cut
        obtain ⟨len, stated⟩ := Option.ne_none_iff_exists'.mp (heads _ _ found)
        obtain ⟨count, same, front, reach, -, ends⟩ := received found stated chunking.1
        refine ⟨_, same, fun r extra whole => ?_⟩
        obtain ⟨none_, fit⟩ := fits r extra whole
        rw [whole, cut_request] at found
        have heads_ : r.head = head := (Prod.mk.inj (Option.some.inj found)).1
        rw [← heads_] at stated reach ends
        rw [none_, List.append_nil] at whole
        have size := front.length_le
        have total := bytes_length r
        have many : r.bytes.length ≤ enough r.head len := by
          rcases fit with empty | fits
          · rw [total, empty]
            exact Nat.le_max_left _ _
          · obtain ⟨long, small⟩ := fits len stated
            rw [enough, Nat.mod_eq_of_lt small, total]
            omega
        rw [whole] at front size ends
        rw [← List.append_nil r.bytes] at front
        rw [handed_iff front reach]
        rcases ends with stops | all
        · omega
        · rw [all]

def unreadableStream : Bytes := utf8 "GET / HTTP/1.1" ++ crlf ++ utf8 "content-length: x" ++ blankLine

/-- A length that is no number ends the thread. -/
theorem unreadable_length_escapes : ¬ReadCorrectly unreadableStream := by
  intro correct
  have whole : Chunking unreadableStream [unreadableStream] :=
    ⟨List.append_nil _, fun chunk member => by
      rw [List.mem_singleton.mp member]
      decide⟩
  have escapes : handedRequest [unreadableStream] = none := by decide
  obtain ⟨req, handed, -⟩ := correct _ whole
  rw [escapes] at handed
  cases handed

end KosSim.VaultHttp
