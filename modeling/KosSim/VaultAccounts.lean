import KosSim.VaultDb
import KosSim.VaultHttp
import KosSim.VaultSessions

/-!
accounts.cpp behind the HTTP server of VaultGrid: register, login, me and logout, and the cookie
between them. set_cookie_response puts the cookie into the response's extra headers, and
handle_client writes none of these.
-/

namespace KosSim.VaultAccounts
open Library Library.Json VaultHttp VaultSessions VaultDb
open VaultJson (jsonString)

/-! The source. -/

structure UserRow where
  id : Int
  username : Bytes
  role : Bytes
  deriving DecidableEq

structure Account where
  user : UserRow
  passwordHash : Bytes
  deriving DecidableEq

/-- The tables accounts, with the last id given, and sessions: user and expiry of a token. -/
structure Db where
  accounts : List Account
  lastId : Int
  sessions : Dict Bytes (Int × Int)

/-- crypt_r on a phrase and a setting, and what the other routes answer, are parameters. -/
structure Env where
  secret : Bytes
  crypt : Bytes → Bytes → Option Bytes
  others : HttpRequest → Except Bytes HttpResponse

def sessionCookie : Bytes := utf8 "vg_session"

def sessionTtlSeconds : Int := 4 * 3600

def isalnum (c : UInt8) : Bool := isDigit c || (65 ≤ c && c ≤ 90) || (97 ≤ c && c ≤ 122)

def validUsername (name : Bytes) : Bool :=
  if name.length < 3 ∨ 32 < name.length then false
  else name.all fun c => isalnum c || c = 95 || c = 46 || c = 45

/-- A–Z, a–z, 0–9, . and /. -/
def saltAlphabet : Bytes :=
  (List.range' 65 26 ++ List.range' 97 26 ++ List.range' 48 10).map UInt8.ofNat ++ [46, 47]

/-- From the twelve random bytes. -/
def randomSalt (random : Bytes) : Bytes := random.map fun b => saltAlphabet.getD (b.toNat &&& 0x3f) 0

/-- c_str(): up to the first NUL. -/
def cStr (text : Bytes) : Bytes := text.takeWhile fun c => decide (c ≠ 0)

def hashPassword (env : Env) (password random : Bytes) : Bytes :=
  (env.crypt (cStr password) (utf8 "$5$rounds=10000$" ++ randomSalt random ++ utf8 "$")).getD []

def verifyPassword (env : Env) (stored password : Bytes) : Bool :=
  if stored = [] then false
  else
    match env.crypt (cStr password) (cStr stored) with
    | none => false
    | some result => constantTimeEq stored result

/-- The items of a cookie header between semicolons; each takes a byte, so the fuel suffices. -/
def cookieLoop (name : Bytes) : Nat → Bytes → Bytes
  | 0, _ => []
  | fuel + 1, stream =>
      match getline 59 stream with
      | none => []
      | some (item, rest) =>
          let item := item.dropWhile (· = 32)
          if (name ++ [61]).isPrefixOf item then item.drop (name.length + 1) else cookieLoop name fuel rest

def readCookie (req : HttpRequest) (name : Bytes) : Bytes :=
  match req.headers.get? (utf8 "cookie") with
  | none => []
  | some text => cookieLoop name (text.length + 1) text

def json (status : Nat) (body : Bytes) : HttpResponse := ⟨status, utf8 "application/json", body, []⟩

def setCookieResponse (status : Nat) (body cookieValue : Bytes) (maxAge : Int) : HttpResponse :=
  { json status body with
    extraHeaders := [(utf8 "set-cookie", sessionCookie ++ utf8 "=" ++ cookieValue ++
      utf8 "; Path=/; HttpOnly; SameSite=Lax; Max-Age=" ++ intText maxAge)] }

def errorBody (code : Bytes) : Bytes := utf8 "\x7b\"error\":\"" ++ code ++ utf8 "\"\x7d"

def userBody (id : Int) (username role : Bytes) : Bytes :=
  utf8 "\x7b\"id\":" ++ intText id ++ utf8 ",\"username\":\"" ++ VaultJson.jsonEscape username ++
    utf8 "\",\"role\":\"" ++ VaultJson.jsonEscape role ++ utf8 "\"\x7d"

/-- A NULL for a column that admits none: the step throws. -/
def notNull (column value : Bytes) : Except Bytes Bytes :=
  match bindText value with
  | some text => .ok text
  | none => .error (utf8 "step: NOT NULL constraint failed: " ++ column)

/-- The row itself is read by no route below. -/
def auditRecord (actor action target : Bytes) : Except Bytes Unit := do
  let _ ← notNull (utf8 "audit.actor") actor
  let _ ← notNull (utf8 "audit.action") action
  let _ ← notNull (utf8 "audit.target") target

/-- SELECT … FROM accounts WHERE username = ?1 -/
def accountNamed (db : Db) (username : Bytes) : Option Account :=
  (bindText username).bind fun name => db.accounts.find? fun account => account.user.username = name

def insertAccount (db : Db) (username hash : Bytes) : Except Bytes Db := do
  let username ← notNull (utf8 "accounts.username") username
  let hash ← notNull (utf8 "accounts.password_hash") hash
  return { db with
    accounts := db.accounts ++ [⟨⟨db.lastId + 1, username, utf8 "analyst"⟩, hash⟩]
    lastId := db.lastId + 1 }

/-- INSERT OR REPLACE INTO sessions. A primary key that is NULL is never found again. -/
def storeSession (db : Db) (token : Bytes) (uid exp : Int) : Db :=
  match bindText token with
  | some token => { db with sessions := db.sessions.set token (uid, exp) }
  | none => db

/-- The session and the answer that register and login end with. -/
def openSession (env : Env) (db : Db) (user : UserRow) (now : Int) : HttpResponse × Db :=
  let exp := now.tdiv 1000 + sessionTtlSeconds
  let token := signSession env.secret user.id exp
  (setCookieResponse 200 (userBody user.id user.username user.role) token sessionTtlSeconds,
    storeSession db token user.id exp)

def accountsRegister (env : Env) (db : Db) (now : Int) (random : Bytes) (req : HttpRequest) :
    Except Bytes HttpResponse × Db :=
  let username := jsonString req.body (utf8 "username")
  let password := jsonString req.body (utf8 "password")
  if validUsername username = false then (.ok (json 400 (errorBody (utf8 "invalid_username"))), db)
  else if password.length < 8 then (.ok (json 400 (errorBody (utf8 "weak_password"))), db)
  else if (accountNamed db username).isSome then (.ok (json 409 (errorBody (utf8 "duplicate"))), db)
  else
    let hash := hashPassword env password random
    if hash = [] then (.ok (json 500 (errorBody (utf8 "hash_failed"))), db)
    else
      match insertAccount db username hash with
      | .error what => (.error what, db)
      | .ok inserted =>
          match auditRecord username (utf8 "user.register") (utf8 "user:" ++ intText inserted.lastId) with
          | .error what => (.error what, inserted)
          | .ok () =>
              let opened := openSession env inserted ⟨inserted.lastId, username, utf8 "analyst"⟩ now
              (.ok opened.1, opened.2)

def badCredentials : HttpResponse := json 401 (errorBody (utf8 "bad_credentials"))

def accountsLogin (env : Env) (db : Db) (now : Int) (req : HttpRequest) : Except Bytes HttpResponse × Db :=
  let username := jsonString req.body (utf8 "username")
  let password := jsonString req.body (utf8 "password")
  match accountNamed db username with
  | none =>
      let actor := if username = [] then utf8 "unknown" else username
      ((auditRecord actor (utf8 "user.login_failed") username).map fun _ => badCredentials, db)
  | some account =>
      if verifyPassword env account.passwordHash password then
        let opened := openSession env db account.user now
        ((auditRecord account.user.username (utf8 "user.login") (utf8 "user:" ++
          intText account.user.id)).map fun _ =>
          opened.1, opened.2)
      else ((auditRecord username (utf8 "user.login_failed") username).map fun _ => badCredentials, db)

def accountsCurrentUser (env : Env) (db : Db) (now : Int) (req : HttpRequest) : Option UserRow :=
  let token := readCookie req sessionCookie
  if token = [] then none
  else
    let (valid, uid, exp) := verifySession env.secret token (-1) 0
    let now := now.tdiv 1000
    if valid = false ∨ exp < now then none
    else
      match (bindText token).bind db.sessions.get? with
      | none => none
      | some (_, expiresAt) =>
          if expiresAt <
            now then none else (db.accounts.find? fun account => account.user.id = uid).map (·.user)

def accountsMe (env : Env) (db : Db) (now : Int) (req : HttpRequest) : HttpResponse :=
  match accountsCurrentUser env db now req with
  | none => json 401 (errorBody (utf8 "auth_required"))
  | some user => json 200 (userBody user.id user.username user.role)

def accountsLogout (db : Db) (req : HttpRequest) : HttpResponse × Db :=
  let token := readCookie req sessionCookie
  (setCookieResponse 200 (utf8 "\x7b\"ok\":true\x7d") [] 0,
    if token = [] then db
    else
      match bindText token with
      | none => db
      | some token => { db with sessions := db.sessions.filter fun key _ => key ≠ token })

/-- The account routes of route_request; none of the routes before them has their paths. -/
def routeRequest (env : Env) (db : Db) (now : Int) (random : Bytes) (req : HttpRequest) :
    Except Bytes HttpResponse × Db :=
  if req.path = utf8 "/api/accounts/register" ∧
  req.method = utf8 "POST" then accountsRegister env db now random req
  else if req.path = utf8 "/api/accounts/login" ∧ req.method = utf8 "POST" then accountsLogin env db now req
  else if req.path = utf8 "/api/accounts/me" ∧
  req.method = utf8 "GET" then (.ok (accountsMe env db now req), db)
  else if req.path = utf8 "/api/accounts/logout" ∧ req.method = utf8 "POST" then
    let ended := accountsLogout db req
    (.ok ended.1, ended.2)
  else (env.others req, db)

/-- One connection: its chunks, the clock in milliseconds and the random bytes it draws. -/
structure Call where
  chunks : List Bytes
  now : Int
  random : Bytes

def answer (env : Env) (db : Db) (call : Call) : Option Bytes :=
  handleClient (fun req => (routeRequest env db call.now call.random req).1) call.chunks

/-- A further request, or the thread that deletes expired sessions. -/
inductive Event
  | request (call : Call)
  | sweep (now : Int)

def Event.after (env : Env) (db : Db) : Event → Db
  | .request call =>
      match handedRequest call.chunks with
      | none => db
      | some req => (routeRequest env db call.now call.random req).2
  | .sweep now => { db with sessions := db.sessions.filter fun _ row => decide (now.tdiv 1000 ≤ row.2) }

/-! The client. -/

def cookieOf (line : Bytes) : Option Bytes :=
  match cutAt [58] line with
  | none => none
  | some (name, value) =>
      if name.map tolower = utf8 "set-cookie" then some
        (trim (value.takeWhile fun c => decide (c ≠ 59))) else none

/-- The cookies that the written bytes set, from the lines of the head. -/
def cookiesOf (text : Bytes) : List Bytes :=
  match cutAt blankLine text with
  | none => []
  | some (head, _) => ((head.splitOn 10).map chomp).filterMap cookieOf

/-- A client without cookies sends no cookie header. -/
def cookieHeader (cookies : List Bytes) : List (Bytes × Bytes) :=
  if cookies = [] then [] else [(utf8 "cookie", (utf8 "; ").intercalate cookies)]

/-- A request for the own account with exactly these cookies. -/
structure SendsBack (r : Request) (cookies : List Bytes) : Prop where
  method : r.method = utf8 "GET"
  target : r.target = utf8 "/api/accounts/me"
  cookie : (r.headers.filter fun header => header.1.map tolower = utf8 "cookie") = cookieHeader cookies

/-- A register or login that succeeds, and the user it is for. -/
def SignedIn (env : Env) (db : Db) (call : Call) (user : UserRow) : Prop :=
  ∃ req res, handedRequest call.chunks = some req ∧ req.method = utf8 "POST" ∧
    (req.path = utf8 "/api/accounts/register" ∨ req.path = utf8 "/api/accounts/login") ∧
    (routeRequest env db call.now call.random req).1 = .ok res ∧ res.status = 200 ∧
    user.username = jsonString req.body (utf8 "username") ∧
    ∃ account ∈ (routeRequest env db call.now call.random req).2.accounts, account.user = user

def expiry (call : Call) : Int := call.now.tdiv 1000 + sessionTtlSeconds

def Event.now : Event → Int
  | .request call => call.now
  | .sweep now => now

def Event.logsOut (token : Bytes) : Event → Prop
  | .request call => ∃ req, handedRequest call.chunks = some req ∧ req.method = utf8 "POST" ∧
      req.path = utf8 "/api/accounts/logout" ∧ readCookie req sessionCookie = token
  | .sweep _ => False

def ownAnswer (id : Int) (username role : Bytes) : Bytes :=
  responseHead (json 200 (userBody id username role)) ++ userBody id username role

/-- At every later moment before the session's expiry and its logout, whatever else is requested,
the cookies of the written bytes bring back the user's id and username. -/
def LoginWorks (env : Env) (db : Db) (call : Call) (user : UserRow) : Prop :=
  ∀ text, answer env db call = some text →
    ∀ events : List Event,
    (∀ event ∈ events, ¬event.logsOut (signSession env.secret user.id (expiry call))) →
    ∀ now, call.now ≤ now → now.tdiv 1000 < expiry call → now.tdiv 1000 < 2 ^ 31 →
    (∀ event ∈ events, event.now ≤ now) →
    ∀ r, SendsBack r (cookiesOf text) → ∀ chunks, Chunking r.bytes chunks → ∀ random, ∃ role,
      answer env ((Event.request call :: events).foldl (Event.after env) db) ⟨chunks, now, random⟩ =
        some (ownAnswer user.id user.username role)

/-! What handle_client writes. -/

theorem chomp_free {line : Bytes} (free : (13 : UInt8) ∉ line) : chomp line = line :=
  if_neg fun last => free (List.mem_of_getLast? last)

theorem head_lines_split {line : Bytes} {lines : List Bytes}
    (good : ∀ other ∈ line :: lines, HeadLine other) :
    ((crlf.intercalate (line :: lines)).splitOn 10).map chomp = line :: lines := by
  have first := good line List.mem_cons_self
  induction lines generalizing line with
  | nil =>
      rw [List.intercalate_singleton, List.splitOn_eq_singleton first.noFeed, List.map_cons,
        chomp_free first.noReturn, List.map_nil]
  | cons next more ih =>
      have rest := ih (fun other member => good other (List.mem_cons_of_mem _ member))
        (good next (List.mem_cons_of_mem _ List.mem_cons_self))
      have parts : crlf.intercalate (line :: next :: more) = (line ++ [13]) ++
          10 :: crlf.intercalate (next :: more) := by
        rw [List.intercalate_cons_cons, crlf]
        simp only [List.append_assoc, List.cons_append, List.nil_append]
      have free : (10 : UInt8) ∉ line ++ [13] := by
        rw [List.mem_append]
        rintro (inside | last)
        · exact first.noFeed inside
        · exact absurd last (by decide)
      rw [parts, List.splitOn_append_cons_self_of_not_mem free, List.map_cons, chomp_return, rest]

def statusLine (status : Nat) : Bytes :=
  utf8 "HTTP/1.1 " ++ digitBytes status ++ utf8 " " ++ statusText status

/-- The lines behind the first one of a response's head. -/
def headerLines (res : HttpResponse) : List Bytes :=
  [utf8 "content-type" ++ 58 :: (utf8 " " ++ res.type), utf8 "content-length" ++
    58 :: (utf8 " " ++ digitBytes res.body.length), utf8 "connection" ++ 58 :: utf8 " close"]

theorem response_head (res : HttpResponse) :
    responseHead res = crlf.intercalate (statusLine res.status :: headerLines res) ++ blankLine := by
  have type : utf8 "content-type: " = utf8 "content-type" ++ 58 :: utf8 " " := by decide
  have length : utf8 "content-length: " = utf8 "content-length" ++ 58 :: utf8 " " := by decide
  have close : utf8 "connection: close" = utf8 "connection" ++ 58 :: utf8 " close" := by decide
  rw [responseHead, type, length, close, headerLines, statusLine]
  simp only [List.intercalate_cons_cons, List.intercalate_singleton, List.append_assoc, List.cons_append]
  rfl

theorem digits_text (n : Nat) : ∀ c ∈ digitBytes n, (Visible c ∨ c = 32 ∨ c = 9) ∧ c ≠ 58 := by
  intro c member
  have digit := (digit_bytes n).2.1 c member
  rw [isDigit, Bool.and_eq_true, decide_eq_true_eq, decide_eq_true_eq] at digit
  have low : 48 ≤ c.toNat := UInt8.le_iff_toNat_le.mp digit.1
  have high : c.toNat ≤ 57 := UInt8.le_iff_toNat_le.mp digit.2
  refine ⟨.inl ⟨UInt8.le_iff_toNat_le.mpr (Nat.le_trans (by decide) low), ?_⟩, ?_⟩
  · rintro rfl
    exact absurd high (by decide)
  · rintro rfl
    exact absurd high (by decide)

theorem status_line_text (status : Nat) :
    ∀ c ∈ statusLine status, (Visible c ∨ c = 32 ∨ c = 9) ∧ c ≠ 58 := by
  have version : ∀ c ∈ utf8 "HTTP/1.1 ", (Visible c ∨ c = 32 ∨ c = 9) ∧ c ≠ 58 := by decide
  have blank : ∀ c ∈ utf8 " ", (Visible c ∨ c = 32 ∨ c = 9) ∧ c ≠ 58 := by decide
  have text : ∀ c ∈ statusText status, (Visible c ∨ c = 32 ∨ c = 9) ∧ c ≠ 58 := by
    unfold statusText
    split
    · decide
    split
    · decide
    split
    · decide
    · decide
  intro c member
  rw [statusLine, List.mem_append, List.mem_append, List.mem_append] at member
  rcases member with ((front | digits) | between) | word
  · exact version c front
  · exact digits_text status c digits
  · exact blank c between
  · exact text c word

theorem response_lines {res : HttpResponse} (type : res.type = utf8 "application/json") :
    ∀ line ∈ statusLine res.status :: headerLines res, HeadLine line := by
  have typeLine : HeadLine (utf8 "content-type" ++ 58 :: (utf8 " " ++ res.type)) := by
    rw [type]
    exact visible_line (by decide) (by decide)
  have closeLine : HeadLine (utf8 "connection" ++ 58 :: utf8 " close") :=
    visible_line (by decide) (by decide)
  have lengthLine : HeadLine (utf8 "content-length" ++ 58 :: (utf8 " " ++ digitBytes res.body.length)) := by
    refine visible_line (List.append_ne_nil_of_left_ne_nil (by decide) _) fun c member => ?_
    have front : ∀ c ∈ utf8 "content-length: ", Visible c ∨ c = 32 ∨ c = 9 := by decide
    have parts : utf8 "content-length" ++ 58 :: (utf8 " " ++ digitBytes res.body.length) =
        utf8 "content-length: " ++ digitBytes res.body.length := rfl
    rw [parts, List.mem_append] at member
    rcases member with name | digits
    · exact front c name
    · exact (digits_text _ c digits).1
  have statusGood : HeadLine (statusLine res.status) := by
    refine visible_line ?_ fun c member => (status_line_text _ c member).1
    rw [statusLine, List.append_assoc, List.append_assoc]
    exact List.append_ne_nil_of_left_ne_nil (by decide) _
  intro line member
  simp only [headerLines, List.mem_cons, List.not_mem_nil, or_false] at member
  rcases member with rfl | rfl | rfl | rfl
  · exact statusGood
  · exact typeLine
  · exact lengthLine
  · exact closeLine

theorem written_without_cookies {res : HttpResponse} (type : res.type = utf8 "application/json") :
    cookiesOf (responseHead res ++ res.body) = [] := by
  have good := response_lines type
  have first : cookieOf (statusLine res.status) = none := by
    rw [cookieOf, cut_none_mark fun member => (status_line_text res.status 58 member).2 rfl]
  have other {name : Bytes} (value : Bytes) (free : (58 : UInt8) ∉ name)
      (apart : name.map tolower ≠ utf8 "set-cookie") : cookieOf (name ++ 58 :: value) = none := by
    rw [cookieOf, cut_mark free]
    exact if_neg apart
  rw [cookiesOf, response_head, List.append_assoc, cut_head good]
  dsimp only
  rw [head_lines_split good, headerLines]
  simp only [List.filterMap_cons, first,
    other _ (show (58 : UInt8) ∉ utf8 "content-type" by decide) (by decide),
    other _ (show (58 : UInt8) ∉ utf8 "content-length" by decide) (by decide),
    other _ (show (58 : UInt8) ∉ utf8 "connection" by decide) (by decide), List.filterMap_nil]

/-! The session. -/

/-- Every response of the account functions is JSON. -/
def Typed (out : Except Bytes HttpResponse × Db) : Prop :=
  ∀ res, out.1 = .ok res → res.type = utf8 "application/json"

theorem typed_json (status : Nat) (body : Bytes) (db : Db) : Typed (.ok (json status body), db) := by
  intro res done
  rw [← Except.ok.inj done]
  rfl

theorem typed_session (env : Env) (db : Db) (user : UserRow) (now : Int) :
    Typed (.ok (openSession env db user now).1, (openSession env db user now).2) := by
  intro res done
  rw [← Except.ok.inj done]
  rfl

theorem typed_error (what : Bytes) (db : Db) : Typed (.error what, db) := by
  intro res done
  cases done

theorem typed_map {entry : Except Bytes Unit} {res : HttpResponse} {db : Db} (typed : Typed (.ok res, db)) :
    Typed (entry.map fun _ => res, db) := by
  cases entry with
  | error what => exact typed_error what db
  | ok _ => exact typed

theorem register_typed (env : Env) (db : Db) (now : Int) (random : Bytes) (req : HttpRequest) :
    Typed (accountsRegister env db now random req) := by
  unfold accountsRegister
  generalize jsonString req.body (utf8 "username") = username
  generalize jsonString req.body (utf8 "password") = password
  dsimp only
  split
  · exact typed_json 400 _ db
  split
  · exact typed_json 400 _ db
  split
  · exact typed_json 409 _ db
  split
  · exact typed_json 500 _ db
  split
  · exact typed_error _ db
  split
  · exact typed_error _ _
  · exact typed_session env _ _ now

theorem login_typed (env : Env) (db : Db) (now : Int) (req : HttpRequest) :
    Typed (accountsLogin env db now req) := by
  unfold accountsLogin
  generalize jsonString req.body (utf8 "username") = username
  generalize jsonString req.body (utf8 "password") = password
  dsimp only
  split
  · exact typed_map (typed_json 401 _ db)
  split
  · exact typed_map (typed_session env db _ now)
  · exact typed_map (typed_json 401 _ db)

/-- A request for the own account without a cookie. -/
def ownRequest : Request := bareGet (utf8 "/api/accounts/me") (by decide) (by decide)

theorem own_request_sends : SendsBack ownRequest [] := ⟨rfl, rfl, rfl⟩

theorem own_request_chunk : Chunking ownRequest.bytes [ownRequest.bytes] :=
  ⟨List.append_nil _, fun chunk member => by
    rw [List.mem_singleton.mp member]
    decide⟩

theorem own_request_handed : handedRequest [ownRequest.bytes] =
    some ⟨utf8 "GET", utf8 "/api/accounts/me", Dict.empty, Dict.empty, []⟩ := by
  rfl

/-- Without a cookie no state and no clock make the user known. -/
theorem own_request_refused (env : Env) (db : Db) (now : Int) (random : Bytes) :
    answer env db ⟨[ownRequest.bytes], now, random⟩ =
      some (responseHead (json 401 (errorBody (utf8 "auth_required"))) ++
        errorBody (utf8 "auth_required")) := by
  have unknown : accountsMe env db now ⟨utf8 "GET", utf8 "/api/accounts/me", Dict.empty, Dict.empty, []⟩ =
      json 401 (errorBody (utf8 "auth_required")) := rfl
  have route : routeRequest env db now random ⟨utf8 "GET", utf8 "/api/accounts/me", Dict.empty,
      Dict.empty, []⟩ = (.ok (json 401 (errorBody (utf8 "auth_required"))), db) := by
    rw [routeRequest, if_neg (by decide), if_neg (by decide), if_pos (by decide), unknown]
  rw [answer, handleClient, own_request_handed, Option.map_some, route]
  rfl

/-- The status tells the refusal from the answer that names the user. -/
theorem refusal_apart (id : Int) (username role : Bytes) :
    responseHead (json 401 (errorBody (utf8 "auth_required"))) ++ errorBody (utf8 "auth_required") ≠
      ownAnswer id username role := by
  intro same
  rw [ownAnswer, responseHead, responseHead] at same
  simp only [List.append_assoc] at same
  have digits := List.append_cancel_left same
  have refused : digitBytes 401 = [52, 48, 49] := by decide
  have known : digitBytes 200 = [50, 48, 48] := by decide
  change digitBytes 401 ++ _ = digitBytes 200 ++ _ at digits
  rw [refused, known] at digits
  exact absurd (List.cons.inj digits).1 (by decide)

theorem works_needs_cookie {env : Env} {db : Db} {call : Call} {user : UserRow} {text : Bytes}
    (written : answer env db call = some text) (none_ : cookiesOf text = [])
    (clock : call.now.tdiv 1000 < 2 ^ 31) :
    ¬LoginWorks env db call user := by
  intro works
  have before : call.now.tdiv 1000 < expiry call := by
    rw [expiry, sessionTtlSeconds]
    omega
  have sends := own_request_sends
  rw [← none_] at sends
  obtain ⟨role, known⟩ := works text written []
    (fun _ member => by cases member) call.now (Int.le_refl _) before clock
    (fun _ member => by cases member) ownRequest sends _ own_request_chunk call.random
  rw [own_request_refused] at known
  exact refusal_apart user.id user.username role (Option.some.inj known)

theorem signed_in_written {env : Env} {db : Db} {call : Call} {user : UserRow}
    (signedIn : SignedIn env db call user) :
    ∃ text, answer env db call = some text ∧ cookiesOf text = [] := by
  obtain ⟨req, res, handed, post, path, done, -⟩ := signedIn
  have type : res.type = utf8 "application/json" := by
    rcases path with register | login
    · rw [routeRequest, if_pos ⟨register, post⟩] at done
      exact register_typed env db call.now call.random req res done
    · have other : ¬(req.path = utf8 "/api/accounts/register" ∧ req.method = utf8 "POST") := by
        rw [login]
        exact fun both => absurd both.1 (by decide)
      rw [routeRequest, if_neg other, if_pos ⟨login, post⟩] at done
      exact login_typed env db call.now req res done
  refine ⟨responseHead res ++ res.body, ?_, written_without_cookies type⟩
  rw [answer, handleClient, handed, Option.map_some, done]

/-- No register and no login works: the written bytes bear no cookie, and without one the user is
not known. -/
theorem login_never_works (env : Env) (db : Db) (call : Call) (user : UserRow)
    (signedIn : SignedIn env db call user) (clock : call.now.tdiv 1000 < 2 ^ 31) :
    ¬LoginWorks env db call user := by
  obtain ⟨text, written, none_⟩ := signed_in_written signedIn
  exact works_needs_cookie written none_ clock

/-! One registration. -/

theorem store_session_accounts (db : Db) (token : Bytes) (uid exp : Int) :
    (storeSession db token uid exp).accounts = db.accounts := by
  unfold storeSession
  split <;> rfl

theorem register_opens {env : Env} {db inserted : Db} {now : Int} {random : Bytes}
    {req : HttpRequest} {username password : Bytes}
    (name : jsonString req.body (utf8 "username") = username)
    (word : jsonString req.body (utf8 "password") = password)
    (valid : validUsername username = true) (strong : ¬password.length < 8)
    (fresh : accountNamed db username = none) (hashed : hashPassword env password random ≠ [])
    (stored : insertAccount db username (hashPassword env password random) = .ok inserted)
    (audited : auditRecord username (utf8 "user.register") (utf8 "user:" ++
      intText inserted.lastId) = .ok ()) : accountsRegister env db now random req =
      (.ok (openSession env inserted ⟨inserted.lastId, username, utf8 "analyst"⟩ now).1,
        (openSession env inserted ⟨inserted.lastId, username, utf8 "analyst"⟩ now).2) := by
  unfold accountsRegister
  rw [name, word]
  dsimp only
  rw [if_neg (by rw [valid]; decide), if_neg strong, if_neg (by rw [fresh]; decide), if_neg hashed, stored]
  dsimp only
  rw [audited]

def plainEnv : Env where
  secret := utf8 "rotate-secret"
  crypt phrase setting :=
    if phrase = utf8 "longpassword" ∧ setting = utf8 "$5$rounds=10000$AAAAAAAAAAAA$" then
      some (utf8 "$5$rounds=10000$AAAAAAAAAAAA$c/DC1uJatxxsC6Z8SLh9ZTbVh6dhm2uqn3gLogDXjT5")
    else none
  others _ := .ok (json 404 (errorBody (utf8 "not_found")))

def emptyDb : Db := ⟨[], 0, Dict.empty⟩

def registerText : Bytes :=
  utf8 "POST /api/accounts/register HTTP/1.1" ++ crlf ++ utf8 "content-length: 46" ++ blankLine ++
    utf8 "\x7b\"username\":\"alice\",\"password\":\"longpassword\"\x7d"

def registerCall : Call := ⟨[registerText], 1700000000000, List.replicate 12 0⟩

def alice : UserRow := ⟨1, utf8 "alice", utf8 "analyst"⟩

theorem register_handed : handedRequest [registerText] = some (parseRequest registerText) := by
  have loop : recvLoop [] [registerText] = some registerText := by decide
  rw [handedRequest, loop]
  rfl

theorem alice_signs_in : SignedIn plainEnv emptyDb registerCall alice := by
  have method : (parseRequest registerText).method = utf8 "POST" := by decide
  have path : (parseRequest registerText).path = utf8 "/api/accounts/register" := by decide
  have name : jsonString (parseRequest registerText).body (utf8 "username") = utf8 "alice" := by decide
  have word : jsonString (parseRequest registerText).body (utf8 "password") = utf8 "longpassword" := by
    decide
  have opened : accountsRegister plainEnv emptyDb registerCall.now registerCall.random
      (parseRequest registerText) = _ :=
    register_opens name word (by decide) (by decide) rfl (by decide) rfl rfl
  have route : routeRequest plainEnv emptyDb registerCall.now registerCall.random
      (parseRequest registerText) = _ :=
    (if_pos ⟨path, method⟩).trans opened
  refine ⟨_, _, register_handed, method, .inl path, congrArg Prod.fst route, rfl, name.symm, ?_⟩
  rw [congrArg Prod.snd route]
  dsimp only [openSession]
  rw [store_session_accounts]
  exact ⟨_, List.mem_singleton_self _, rfl⟩

theorem alice_unknown : ¬LoginWorks plainEnv emptyDb registerCall alice :=
  login_never_works plainEnv emptyDb registerCall alice alice_signs_in (by decide)

/-- A registration that succeeds and leaves its user unknown. -/
theorem register_in_vain :
    SignedIn plainEnv emptyDb registerCall alice ∧ ¬LoginWorks plainEnv emptyDb registerCall alice := by
  obtain ⟨text, written, none_⟩ := signed_in_written alice_signs_in
  exact ⟨alice_signs_in, works_needs_cookie written none_ (by decide)⟩

end KosSim.VaultAccounts
