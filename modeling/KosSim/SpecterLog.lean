import KosSim.Library.Dict
import KosSim.Library.Hex
import KosSim.Library.Runs
import KosSim.Library.Sha256
import KosSim.Library.Utf16

/-!
SpecterLog: the Store of state.ts with the tables and blob files beside it, under the
checker's methods (flagstores.ts), the indexer, the requests that write, and a restart. A
JavaScript string is a list of code units; a TEXT column keeps the text that it is stored
as. A request is handled to its end before the next one. The clock and what is drawn at
random come with the input.
-/

namespace KosSim.SpecterLog
open Library

abbrev JsString := List UInt16

def js (text : String) : JsString := utf16 text

/-! The tables. -/

structure EventRow where
  id : Nat
  stream : String
  kind : String
  body : String
  isPublic : Bool
  archive : String
  payload : Int
  tick : Int
  createdAt : Int
  deriving DecidableEq

/-- The JSON of flag_index.ref, and the bare archive that putIncident puts there. -/
inductive Ref where
  | archive (archive : String)
  | event (eventId : Nat) (archive : String)
  | attachment (caseId handle : String)
  | brief (briefId caseId : String)
  deriving DecidableEq

structure FlagRow where
  flag : String
  ref : Ref
  deriving DecidableEq

structure UserRow where
  username : String
  passwordHash : String
  role : String
  createdAt : Int
  deriving DecidableEq

structure SessionRow where
  userId : Nat
  expiresAt : Int
  deriving DecidableEq

structure CaseRow where
  ownerId : Nat
  title : String
  summary : String
  isPublic : Bool
  createdAt : Int
  deriving DecidableEq

structure BriefRow where
  caseId : String
  authorId : Nat
  title : String
  body : String
  isPublic : Bool
  tick : Int
  createdAt : Int
  deriving DecidableEq

structure AttachmentRow where
  caseId : String
  filename : String
  contentType : String
  size : Nat
  sha256 : String
  tick : Int
  createdAt : Int
  deriving DecidableEq

structure Tables where
  events : List EventRow := []
  eventSeq : Nat := 0
  flagIndex : Dict (Int × Int) FlagRow := Dict.empty
  users : Dict Nat UserRow := Dict.empty
  userSeq : Nat := 0
  sessions : Dict String SessionRow := Dict.empty
  cases : Dict String CaseRow := Dict.empty
  briefs : Dict String BriefRow := Dict.empty
  attachments : Dict String AttachmentRow := Dict.empty

structure Event where
  id : Nat
  stream : String
  kind : String
  body : JsString
  isPublic : Bool
  archive : String
  payload : Int
  deriving DecidableEq

/-- The blob files are found by their handles. -/
structure Store where
  db : Tables
  blobs : Dict String (List UInt8) := Dict.empty
  events : List Event := []
  archives : Dict String (List Nat) := Dict.empty

/-- What the process is started with; hashing and signing are the library's. -/
structure Env where
  service : String := "svc3"
  bootFlag : String := "FLAG\x7bBOOT_SPECTERLOG\x7d"
  verifyPassword : String → JsString → Bool
  signSession : Nat → Int → String
  verifySession : String → Option (Nat × Int)
  signDownload : String → String → Int → String

/-- randomBytes(8), and for a new system user the 43 characters of its password, with the hash. -/
structure Draw where
  bytes : List UInt8
  password : JsString
  long : password.length = 43
  passwordHash : String

/-! Hashes and ids. -/

def hexDigest (data : List UInt8) : String := hexEncode (Sha256.sha256 data)

def hexSlice (data : List UInt8) (count : Nat) : String :=
  String.ofList ((hexDigest data).toList.take count)

def shortHash (text : JsString) : String := hexSlice (utf8 (toText text)) 18

def newId (head : String) (bytes : List UInt8) : String := head ++ "_" ++ hexEncode bytes

def attachHandle (caseId : String) (bytes : List UInt8) (now : Int) : String :=
  hexSlice (utf8 ("attach:" ++ caseId ++ ":" ++ hexEncode bytes ++ ":" ++ toString now)) 24

/-! The event log. -/

def toDomain (row : EventRow) (id : Nat) : Event :=
  ⟨id, row.stream, row.kind, js row.body, row.isPublic, row.archive, row.payload⟩

def pushArchive (archives : Dict String (List Nat)) (event : Event) : Dict String (List Nat) :=
  archives.set event.archive ((archives.get? event.archive).getD [] ++ [event.id])

def reload (store : Store) : Store :=
  let events := store.db.events.mapIdx fun idx row => toDomain row idx
  { store with events := events, archives := events.foldl pushArchive Dict.empty }

def append (store : Store) (stream kind : String) (body : JsString) (isPublic : Bool)
    (payload tick now : Int) :
    Store × Event :=
  let archive :=
    shortHash (js (stream ++ ":" ++ kind ++ ":") ++ body ++ js (":" ++ toString store.events.length))
  let row : EventRow :=
    ⟨store.db.eventSeq + 1, stream, kind, toText body, isPublic, archive, payload, tick, now⟩
  let event : Event := ⟨store.events.length, stream, kind, body, isPublic, archive, payload⟩
  ({ store with
      db := { store.db with events := store.db.events ++ [row], eventSeq := store.db.eventSeq + 1 }
      events := store.events ++ [event]
      archives := pushArchive store.archives event }, event)

def indexFlag (store : Store) (tick variant : Int) (flag : JsString) (ref : Ref) : Store :=
  { store with
    db := { store.db with flagIndex := store.db.flagIndex.set (tick, variant) ⟨toText flag, ref⟩ } }

def putIncident (store : Store) (tick : Int) (flag : JsString) (now : Int) : Store × Event :=
  let (checked, _) :=
    append store "public" "checkpoint" (js ("checkpoint " ++ toString tick ++ "/0")) true 0 tick now
  let (written, event) := append checked "private" "incident" flag false 0 tick now
  (indexFlag written tick 0 flag (.archive event.archive), event)

def getIncident (store : Store) (tick : Int) (expected : JsString) : Bool :=
  match store.db.flagIndex.get? (tick, 0) with
  | none => false
  | some row =>
      if js row.flag ≠ expected then false
      else store.events.any fun event => decide (event.body = expected) && decide (event.stream = "private")

def noiseKind : String := "sample"

def putNoiseEvent (env : Env) (store : Store) (tick payload now : Int) : Store :=
  (append store "public" noiseKind (js ("sample:" ++ env.service ++ ":" ++ toString tick ++ ":" ++
    toString payload)) true payload tick now).1

def havocWalk (store : Store) (tick payload now : Int) : Store :=
  (append store "public" "walk" (js ("walk:" ++ toString tick ++ ":" ++ toString payload)) true
    payload tick now).1

def oldNoise (cutoff : Int) (row : EventRow) : Bool :=
  decide (row.kind = noiseKind) && decide (row.createdAt < cutoff) && decide (row.stream = "public")

/-- The DELETE of `pruneOldNoise`. -/
def deleteOldNoise (store : Store) (cutoff : Int) : Store :=
  { store with db := { store.db with events := store.db.events.filter fun row => !oldNoise cutoff row } }

def pruneOldNoise (store : Store) (retentionMs now : Int) : Store × Nat :=
  if now - retentionMs ≤ 0 then (store, 0)
  else
    match store.db.events.countP (oldNoise (now - retentionMs)) with
    | 0 => (deleteOldNoise store (now - retentionMs), 0)
    | changes + 1 => (reload (deleteOldNoise store (now - retentionMs)), changes + 1)

/-! Accounts. -/

/-- A code unit of \s: what trim takes off both ends. -/
def isSpace (unit : UInt16) : Bool :=
  let n := unit.toNat
  decide (9 ≤ n ∧ n ≤ 13 ∨ n = 32 ∨ n = 0xa0 ∨ n = 0x1680 ∨ 0x2000 ≤ n ∧ n ≤ 0x200a ∨ n = 0x2028 ∨
    n = 0x2029 ∨ n = 0x202f ∨ n = 0x205f ∨ n = 0x3000 ∨ n = 0xfeff)

def trim (text : JsString) : JsString := ((text.dropWhile isSpace).reverse.dropWhile isSpace).reverse

def isWordUnit (unit : UInt16) : Bool :=
  let n := unit.toNat
  decide (48 ≤ n ∧ n ≤ 57 ∨ 65 ≤ n ∧ n ≤ 90 ∨ 97 ≤ n ∧ n ≤ 122 ∨ n = 95 ∨ n = 46 ∨ n = 45)

/-- USERNAME_RE -/
def validUsername (username : JsString) : Bool :=
  decide (3 ≤ username.length) && decide (username.length ≤ 32) && username.all isWordUnit

def findUser (db : Tables) (username : JsString) : Option (Nat × UserRow) :=
  db.users.entries.find? fun entry => decide (entry.2.username = toText username)

def createUser (store : Store) (username password : JsString) (passwordHash role : String) (now : Int) :
    Store × Except String (Nat × UserRow) :=
  if !validUsername username then (store, .error "invalid_username")
  else if password.length < 8 then (store, .error "weak_password")
  else if (findUser store.db username).isSome then (store, .error "duplicate")
  else
    let id := store.db.userSeq + 1
    let row : UserRow := ⟨toText username, passwordHash, role, now⟩
    ({ store with db := { store.db with users := store.db.users.set id row, userSeq := id } },
      .ok (id, row))

def sessionTtlSeconds : Int := 4 * 3600

def issueSession (env : Env) (store : Store) (userId : Nat) (now : Int) : Store × String :=
  let expires := now / 1000 + sessionTtlSeconds
  let cookie := env.signSession userId expires
  ({ store with db := { store.db with sessions := store.db.sessions.set cookie ⟨userId, expires⟩ } },
    cookie)

def currentUser (env : Env) (store : Store) (cookie : Option String) (now : Int) : Option (Nat × UserRow) :=
  match cookie with
  | none => none
  | some token =>
      match env.verifySession token with
      | none => none
      | some (uid, exp) =>
          if exp < now / 1000 then none
          else
            match store.db.sessions.get? token with
            | none => none
            | some session =>
                if session.expiresAt ≤ now / 1000 then none
                else (store.db.users.get? uid).map fun user => (uid, user)

/-! Cases, briefs and attachments. -/

def titleMax : Nat := 160
def bodyMax : Nat := 16000
def caseTitleMax : Nat := 120
def summaryMax : Nat := 2000
def maxUploadBytes : Nat := 256 * 1024

/-- `createBrief`; a taken id is the error of the INSERT. -/
def createBrief (store : Store) (caseId : String) (authorId : Nat) (title body : JsString) (isPublic : Bool)
    (tick : Int) (bytes : List UInt8) (now : Int) : Store × Except String (String × BriefRow) :=
  let id := newId "brf" bytes
  let row : BriefRow :=
    ⟨caseId, authorId, toText (title.take titleMax), toText (body.take bodyMax), isPublic, tick, now⟩
  match insertNew store.db.briefs id row with
  | none => (store, .error "UNIQUE constraint failed: briefs.id")
  | some briefs => ({ store with db := { store.db with briefs := briefs } }, .ok (id, row))

/-- `createAttachment`: the file is written before the row. -/
def createAttachment (store : Store) (caseId : String) (filename contentType : JsString) (body : List UInt8)
    (tick : Int) (bytes : List UInt8) (now : Int) : Store × Except String (String × AttachmentRow) :=
  if maxUploadBytes < body.length then (store, .error "too_large")
  else
    let handle := attachHandle caseId bytes now
    let written := { store with blobs := store.blobs.set handle body }
    let row : AttachmentRow :=
      ⟨caseId, toText filename, toText contentType, body.length, hexDigest body, tick, now⟩
    match insertNew store.db.attachments handle row with
    | none => (written, .error "UNIQUE constraint failed: attachments.handle")
    | some attachments =>
        ({ written with db := { store.db with attachments := attachments } }, .ok (handle, row))

def shareTtlSeconds : Int := 6 * 3600

def mintShare (env : Env) (caseId handle : String) (now : Int) : String × Int :=
  let exp := now / 1000 + shareTtlSeconds
  (env.signDownload caseId handle exp, exp)

/-! The checker's methods. -/

/-- A throw ends the method; what was written before it stays. -/
def andThen {α β : Type} (done : Store × Except String α) (next : Store → α → Store × Except String β) :
    Store × Except String β :=
  match done.2 with
  | .error message => (done.1, .error message)
  | .ok value => next done.1 value

def ensureSystemUser (store : Store) (draw : Draw) (now : Int) : Store × Except String (Nat × UserRow) :=
  match findUser store.db (js "specterlog") with
  | some existing => (store, .ok existing)
  | none => createUser store (js "specterlog") draw.password draw.passwordHash "admin" now

def ensureSystemCase (store : Store) (owner : Nat) (slot : String) (now : Int) :
    Store × Except String (String × CaseRow) :=
  let slug := "system_" ++ slot
  match store.db.cases.get? slug with
  | some row => (store, .ok (slug, row))
  | none =>
      let row : CaseRow := ⟨owner, "internal:" ++ slot, "system bookkeeping", false, now⟩
      ({ store with db := { store.db with cases := store.db.cases.set slug row } }, .ok (slug, row))

inductive AttackInfo where
  | event (eventId : Nat) (archive : String)
  | attachment (caseId handle : String) (exp : Int) (sig : String)
  | brief (briefId caseId : String)
  deriving DecidableEq

/-- Buffer.from(text, "utf8") -/
def bufferOf (text : JsString) : List UInt8 := utf8 (toText text)

def putFlag (env : Env) (store : Store) (tick variant : Int) (flag : JsString) (draw : Draw) (now : Int) :
    Store × Except String AttackInfo :=
  if variant = 0 then
    let (written, event) := putIncident store tick flag now
    (indexFlag written tick 0 flag (.event event.id event.archive), .ok (.event event.id event.archive))
  else if variant = 1 then
    andThen (ensureSystemUser store draw now) fun store system =>
    andThen (ensureSystemCase store system.1 "evidence" now) fun store caseRow =>
    andThen (createAttachment store caseRow.1 (js ("evidence-" ++ toString tick ++ ".bin"))
      (js "application/octet-stream") (bufferOf flag) tick draw.bytes now) fun store row =>
    let (sig, exp) := mintShare env row.2.caseId row.1 now
    (indexFlag store tick 1 flag (.attachment row.2.caseId row.1),
      .ok (.attachment row.2.caseId row.1 exp sig))
  else if variant = 2 then
    andThen (ensureSystemUser store draw now) fun store system =>
    andThen (ensureSystemCase store system.1 "directives" now) fun store caseRow =>
    andThen (createBrief store caseRow.1 system.1 (js ("directive " ++ toString tick)) flag false
      tick draw.bytes now) fun store brief =>
    (indexFlag store tick 2 flag (.brief brief.1 brief.2.caseId), .ok (.brief brief.1 brief.2.caseId))
  else (store, .error ("unknown_variant:" ++ toString variant))

/-- String(ref.handle ?? "") -/
def refHandle : Ref → String
  | .attachment _ handle => handle
  | _ => ""

/-- String(ref.brief_id ?? "") -/
def refBrief : Ref → String
  | .brief briefId _ => briefId
  | _ => ""

/-- buf.toString("utf8"); bytes that are no UTF-8 are some other text, with replacement characters. -/
def textOf (replaced : List UInt8 → String) (buf : List UInt8) : JsString :=
  js ((String.fromUTF8? buf.toByteArray).getD (replaced buf))

def getFlag (replaced : List UInt8 → String) (store : Store) (tick variant : Int)
    (expected : JsString) : Bool :=
  match store.db.flagIndex.get? (tick, variant) with
  | none => false
  | some row =>
      if js row.flag ≠ expected then false
      else
        match row.ref with
        | .archive _ => false
        | ref =>
            if variant = 0 then getIncident store tick expected
            else if variant = 1 then
              if refHandle ref = "" then false
              else
                match store.blobs.get? (refHandle ref) with
                | none => false
                | some buf => decide (textOf replaced buf = expected)
            else if variant = 2 then
              if refBrief ref = "" then false
              else
                match store.db.briefs.get? (refBrief ref) with
                | none => false
                | some brief => decide (js brief.body = expected)
            else false

def publishCase (store : Store) (id : String) (isPublic : Bool) : Store :=
  { store with
    db := { store.db with cases := store.db.cases.modify id fun row => { row with isPublic := isPublic } } }

/-- The system user and its public case for noise. -/
def noiseCase (store : Store) (draw : Draw) (now : Int) : Store × Except String (Nat × String) :=
  andThen (ensureSystemUser store draw now) fun store system =>
  andThen (ensureSystemCase store system.1 "noise-public" now) fun store caseRow =>
  (if caseRow.2.isPublic then store else publishCase store caseRow.1 true, .ok (system.1, caseRow.1))

def putNoise (env : Env) (store : Store) (tick variant : Int) (draw : Draw) (now : Int) :
    Store × Except String Bool :=
  if variant = 0 then (putNoiseEvent env store tick variant now, .ok true)
  else if variant = 1 then
    andThen (noiseCase store draw now) fun store system =>
    andThen (createAttachment store system.2 (js ("noise-" ++ toString tick ++ ".txt")) (js "text/plain")
      (bufferOf (js ("noise:" ++ toString tick ++ ":" ++ toString variant))) tick draw.bytes now)
      fun store _ =>
    (store, .ok true)
  else if variant = 2 then
    andThen (noiseCase store draw now) fun store system =>
    andThen (createBrief store system.2 system.1 (js ("public note " ++ toString tick))
      (js ("noise:" ++ toString tick ++ ":" ++ toString variant)) true tick draw.bytes now) fun store _ =>
    (store, .ok true)
  else (store, .ok false)

def havoc (store : Store) (tick variant now : Int) : Store × Bool :=
  let walked := havocWalk store tick variant now
  (walked, decide (0 < walked.events.length))

/-! The indexer, and starting the process. -/

def noiseRetentionMs : Int := 30 * 60000

def cycle (store : Store) (now : Int) : Store :=
  let pruned := (pruneOldNoise store noiseRetentionMs now).1
  { pruned with
    db := { pruned.db with
      sessions := pruned.db.sessions.filter fun _ row => decide (now / 1000 ≤ row.expiresAt) } }

/-- The constructor, on the tables and files that it finds. -/
def openStore (db : Tables) (blobs : Dict String (List UInt8)) (now : Int) : Store :=
  let store := reload ⟨db, blobs, [], Dict.empty⟩
  if store.events.length = 0 then
    (append store "public" "heartbeat" (js "specterlog collector booted") true 0 0 now).1
  else store

/-- The three flags of the first start; a throw is the end of the process. -/
def bootFlags (env : Env) (store : Store) (draws : Draw × Draw) (now : Int) : Option Store :=
  if store.db.flagIndex.contains (0, 0) then some store
  else
    let done := andThen (putFlag env store 0 0 (js env.bootFlag) draws.1 now) fun store _ =>
      andThen (putFlag env store 0 1 (js (env.bootFlag ++ "_EVIDENCE")) draws.1 now) fun store _ =>
      putFlag env store 0 2 (js (env.bootFlag ++ "_DIRECTIVE")) draws.2 now
    match done.2 with
    | .error _ => none
    | .ok _ => some done.1

def boot (env : Env) (db : Tables) (blobs : Dict String (List UInt8)) (draws : Draw × Draw)
    (now : Int) : Option Store :=
  (bootFlags env (openStore db blobs now) draws now).map fun store => cycle store now

/-! Requests. One that the rate limit stops is not handled at all. -/

/-- A status with an error text. -/
abbrev Refusal := Nat × String

def register (env : Env) (store : Store) (username password : JsString) (passwordHash : String)
    (now : Int) :
    Store × Except Refusal (Nat × String) :=
  let name := trim username
  if name = [] ∨ password = [] then (store, .error (400, "missing_fields"))
  else
    match createUser store name password passwordHash "analyst" now with
    | (store, .error code) => (store, .error (if code = "duplicate" then 409 else 400, code))
    | (store, .ok user) =>
        let (written, cookie) := issueSession env store user.1 now
        (written, .ok (user.1, cookie))

def login (env : Env) (store : Store) (username password : JsString) (now : Int) :
    Store × Except Refusal (Nat × String) :=
  match findUser store.db (trim username) with
  | none => (store, .error (401, "bad_credentials"))
  | some (id, user) =>
      if env.verifyPassword user.passwordHash password then
        let (written, cookie) := issueSession env store id now
        (written, .ok (id, cookie))
      else (store, .error (401, "bad_credentials"))

def logout (store : Store) (cookie : Option String) : Store :=
  match cookie with
  | none => store
  | some token => { store with db := { store.db with sessions := removeKey store.db.sessions token } }

/-- The handlers that begin with requireUser. -/
def asUser {α : Type} (env : Env) (store : Store) (cookie : Option String) (now : Int)
    (act : Nat × UserRow → Store × Except Refusal α) : Store × Except Refusal α :=
  match currentUser env store cookie now with
  | none => (store, .error (401, "auth_required"))
  | some user => act user

/-- The handlers that only the owner of a case or an admin passes. -/
def asOwner {α : Type} (store : Store) (user : Nat × UserRow) (id : String) (missing : Refusal)
    (act : CaseRow → Store × Except Refusal α) : Store × Except Refusal α :=
  match store.db.cases.get? id with
  | none => (store, .error missing)
  | some row =>
      if row.ownerId ≠ user.1 ∧ user.2.role ≠ "admin" then (store, .error (403, "forbidden")) else act row

def postCase (env : Env) (store : Store) (cookie : Option String) (title summary : JsString)
    (isPublic : Bool) (bytes : List UInt8) (now : Int) : Store × Except Refusal String :=
  asUser env store cookie now fun user =>
    let cleaned := trim (title.take caseTitleMax)
    if cleaned = [] then (store, .error (400, "missing_title"))
    else
      let id := newId "case" bytes
      match insertNew store.db.cases id ⟨user.1, toText cleaned, toText (summary.take summaryMax),
        isPublic, now⟩ with
      | none => (store, .error (500, "UNIQUE constraint failed: cases.id"))
      | some cases => ({ store with db := { store.db with cases := cases } }, .ok id)

def patchCase (env : Env) (store : Store) (cookie : Option String) (id : String)
    (title summary : Option JsString) (now : Int) : Store × Except Refusal CaseRow :=
  asUser env store cookie now fun user => asOwner store user id (404, "not_found") fun row =>
    let updated := { row with
      title := (title.map fun text => toText (trim (text.take caseTitleMax))).getD row.title
      summary := (summary.map fun text => toText (text.take summaryMax)).getD row.summary }
    ({ store with db := { store.db with cases := store.db.cases.set id updated } }, .ok updated)

/-- publish and unpublish. -/
def postPublish (env : Env) (store : Store) (cookie : Option String) (id : String) (isPublic : Bool)
    (now : Int) :
    Store × Except Refusal Unit :=
  asUser env store cookie now fun user => asOwner store user id (404, "not_found") fun _ =>
    (publishCase store id isPublic, .ok ())

def postBrief (env : Env) (store : Store) (cookie : Option String) (caseId : String) (title body : JsString)
    (isPublic : Bool) (bytes : List UInt8) (now : Int) : Store × Except Refusal (String × BriefRow) :=
  asUser env store cookie now fun user => asOwner store user caseId (400, "missing_case") fun _ =>
    if trim title = [] then (store, .error (400, "missing_title"))
    else
      match createBrief store caseId user.1 (trim title) body isPublic 0 bytes now with
      | (store, .error message) => (store, .error (500, message))
      | (store, .ok created) => (store, .ok created)

def cleanFilename (filename : JsString) : JsString :=
  (filename.map fun unit => if isWordUnit unit || unit = 32 then unit else 95).take 120

/-- An upload; the base64 data comes decoded, none where the field is empty. -/
def postAttachment (env : Env) (store : Store) (cookie : Option String) (caseId : String)
    (filename contentType : JsString) (data : Option (List UInt8)) (bytes : List UInt8) (now : Int) :
    Store × Except Refusal (String × AttachmentRow) :=
  asUser env store cookie now fun user => asOwner store user caseId (404, "case_not_found") fun _ =>
    match data with
    | none => (store, .error (400, "missing_data"))
    | some body =>
        match createAttachment store caseId (cleanFilename filename)
          (contentType.take 80) body 0 bytes now with
        | (store, .error code) => (store, .error (if code = "too_large" then 413 else 400, code))
        | (store, .ok row) => (store, .ok row)

/-! The system. -/

/-- `rest` is every request that reads, or writes only audit, api_tokens, brief_comments,
rate_buckets or kv. -/
inductive Input where
  | putFlag (tick variant : Int) (flag : JsString) (draw : Draw) (now : Int)
  | putNoise (tick variant : Int) (draw : Draw) (now : Int)
  | havoc (tick variant now : Int)
  | pruneOldNoise (retentionMs now : Int)
  | cycle (now : Int)
  | restart (draws : Draw × Draw) (now : Int)
  | register (username password : JsString) (passwordHash : String) (now : Int)
  | login (username password : JsString) (now : Int)
  | logout (cookie : Option String)
  | postCase (cookie : Option String) (title summary : JsString) (isPublic : Bool)
    (bytes : List UInt8) (now : Int)
  | patchCase (cookie : Option String) (id : String) (title summary : Option JsString) (now : Int)
  | postPublish (cookie : Option String) (id : String) (isPublic : Bool) (now : Int)
  | postBrief (cookie : Option String) (caseId : String) (title body : JsString) (isPublic : Bool)
      (bytes : List UInt8) (now : Int)
  | postAttachment (cookie : Option String) (caseId : String) (filename contentType : JsString)
      (data : Option (List UInt8)) (bytes : List UInt8) (now : Int)
  | rest

/-- Only a restart can fail. -/
def step (env : Env) (store : Store) : Input → Option Store
  | .putFlag tick variant flag draw now => some (putFlag env store tick variant flag draw now).1
  | .putNoise tick variant draw now => some (putNoise env store tick variant draw now).1
  | .havoc tick variant now => some (havoc store tick variant now).1
  | .pruneOldNoise retentionMs now => some (pruneOldNoise store retentionMs now).1
  | .cycle now => some (cycle store now)
  | .restart draws now => boot env store.db store.blobs draws now
  | .register username password passwordHash now =>
      some (register env store username password passwordHash now).1
  | .login username password now => some (login env store username password now).1
  | .logout cookie => some (logout store cookie)
  | .postCase cookie title summary isPublic bytes now =>
      some (postCase env store cookie title summary isPublic bytes now).1
  | .patchCase cookie id title summary now => some (patchCase env store cookie id title summary now).1
  | .postPublish cookie id isPublic now => some (postPublish env store cookie id isPublic now).1
  | .postBrief cookie caseId title body isPublic bytes now =>
      some (postBrief env store cookie caseId title body isPublic bytes now).1
  | .postAttachment cookie caseId filename contentType data bytes now =>
      some (postAttachment env store cookie caseId filename contentType data bytes now).1
  | .rest => some store

def run (env : Env) : Store → List Input → Option Store := exec (step env) fun _ _ => True

end KosSim.SpecterLog
