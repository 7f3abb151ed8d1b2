import KosSim.Library.Base64Url
import KosSim.Library.Dict
import KosSim.Library.Handlers
import KosSim.Library.Hex
import KosSim.Library.Json
import KosSim.Library.Sha256Blocks
import KosSim.PolicyDsl

/-!
PolicyForge: the agent of state.ex with its file, the signed tokens, and the routes of router.ex as
handlers that call the agent one function at a time. The patches of the repository are switches of
the functions that they change.
-/

namespace KosSim.PolicyForge
open Library Library.Base64
open PolicyDsl (Text CaseMap Rule)

abbrev Bytes := List UInt8

/-! Data. -/

/-- An object without its data, as the catalog lists it. -/
structure Listed where
  id : Text
  tenant : Text
  className : Text
  owner : Text
  isPublic : Bool
  snapshot : Text
  deriving DecidableEq

structure Obj extends Listed where
  data : Text
  deriving DecidableEq

structure Snap where
  id : Text
  tenant : Text
  objects : List Text
  deriving DecidableEq

/-- The four maps that are written to state.term. -/
structure Stored where
  flags : Dict (Int × Int) Text := Dict.empty
  objects : Dict Text Obj := Dict.empty
  cache : Dict Text Bool := Dict.empty
  snapshots : Dict Text Snap := Dict.empty

structure State where
  mem : Stored
  disk : Option Stored

/-- What a session's body says. -/
structure Session where
  user : Text
  groups : List Text
  exp : Int
  deriving DecidableEq

/-- Jason, of the sessions: what is encoded is an object and is read back, and the name of the
public snapshot is no JSON. -/
structure Jason where
  encode : Session → Bytes
  decode : Bytes → Option Session
  readBack : ∀ session, decode (encode session) = some session
  opens : ∀ session, (encode session).head? = some Json.openBrace
  noName : decode (utf8 "public-snap") = none

/-- The files under patches, in their order a to e. -/
structure Patches where
  cacheKey : Bool
  evalData : Bool
  tenantClaim : Bool
  shareBinding : Bool
  unlessKeyword : Bool
  deriving DecidableEq

structure Env where
  team : Text := "team".toList
  service : Text := "svc5".toList
  secret : Text := "rotate-secret".toList
  boot : Text := "FLAG\x7bBOOT_POLICYFORGE\x7d".toList
  sha : Bytes → Bytes := Sha256.sha256
  jason : Jason
  cases : CaseMap
  patches : Patches

/-! The state. -/

def bytesOf (text : Text) : Bytes := utf8 (String.ofList text)

def intChars (n : Int) : Text := (toString n).toList

def publicObject : Text := "public-incident".toList

def publicSnapshot : Text := "public-snap".toList

def incident : Text := "incident".toList

def ledgerShare : Text := "ledger-share".toList

def auditRecord : Text := "audit-record".toList

def guest : Text := "guest".toList

def checker : Text := "checker".toList

def auditor : Text := "auditor".toList

/-- The first eighteen hex digits. -/
def hash (env : Env) (text : Text) : Text := (hexEncode (env.sha (bytesOf text))).toList.take 18

def variantClass (payload : Int) : Text :=
  if payload = 0 then incident
  else if payload = 1 then ledgerShare
  else if payload = 2 then auditRecord
  else incident

def seedObject (env : Env) : Obj where
  id := publicObject
  tenant := env.team
  className := incident
  owner := guest
  isPublic := true
  snapshot := publicSnapshot
  data := "public postmortem template".toList

def seedSnap (env : Env) : Snap := ⟨publicSnapshot, env.team, [publicObject]⟩

/-- Map.put_new -/
def putNew {κ α : Type} [DecidableEq κ] (dict : Dict κ α) (key : κ) (value : α) : Dict κ α :=
  if dict.contains key then dict else dict.set key value

def seedPublic (env : Env) (mem : Stored) : Stored :=
  { mem with
    objects := putNew mem.objects publicObject (seedObject env)
    snapshots := putNew mem.snapshots publicSnapshot (seedSnap env) }

def flagText (env : Env) (tick payload : Int) (flag : Text) : Text :=
  env.team ++ ':' :: intChars tick ++ ':' :: intChars payload ++ ':' :: flag

def flagObject (env : Env) (tick payload : Int) (flag : Text) : Obj :=
  let target := hash env (flagText env tick payload flag)
  { id := target
    tenant := env.team
    className := variantClass payload
    owner := checker
    isPublic := false
    snapshot := hash env ("snap:".toList ++ target)
    data := flag }

/-- put_flag_state, less the writing of the file. -/
def putFlagState (env : Env) (mem : Stored) (tick payload : Int) (flag : Text) : Stored :=
  let obj := flagObject env tick payload flag
  { flags := mem.flags.set (tick, payload) flag
    objects := mem.objects.set obj.id obj
    snapshots := mem.snapshots.set obj.snapshot ⟨obj.snapshot, env.team, [obj.id]⟩
    cache := Dict.empty }

def noiseObject (env : Env) (tick payload : Int) : Obj where
  id := hash env (env.team ++ ":noise:".toList ++ intChars tick ++ ':' :: intChars payload)
  tenant := env.team
  className := "sample".toList
  owner := guest
  isPublic := true
  snapshot := "noise".toList
  data := "sample:".toList ++ env.service ++ ':' :: intChars tick ++ ':' :: intChars payload

def putNoiseState (env : Env) (mem : Stored) (tick payload : Int) : Stored :=
  let obj := noiseObject env tick payload
  { mem with objects := mem.objects.set obj.id obj }

/-- The flags that the service starts with: one of each variant. -/
def bootFlags (env : Env) : List (Int × Text) :=
  [(0, env.boot), (1, env.boot ++ "_LEDGER".toList), (2, env.boot ++ "_AUDIT".toList)]

/-- A failed write of the file is not looked at, and none fails here. -/
def persist (mem : Stored) : State := ⟨mem, some mem⟩

def init (env : Env) (disk : Option Stored) : State :=
  persist ((bootFlags env).foldl (fun mem flag => putFlagState env mem 0 flag.1 flag.2)
    (seedPublic env (disk.getD {})))

def cacheKeyOf (env : Env) (session : Session) (obj : Obj) : Text :=
  let key := session.user ++ ':' :: obj.tenant ++ ':' :: obj.className
  if env.patches.cacheKey then key ++ ':' :: obj.id else key

def grants (session : Session) (obj : Obj) : Bool :=
  obj.isPublic || decide (obj.owner = session.user) || decide (auditor ∈ session.groups)

/-- The decision of `allowed?`; none where the object is not there and the agent fails. -/
def allowed? (env : Env) (mem : Stored) (session : Session) (id : Text) : Option Bool :=
  (mem.objects.get? id).map fun obj => (mem.cache.get? (cacheKeyOf env session obj)).getD
    (grants session obj)

/-- The change of `allowed?`; an agent that fails is started again. -/
def allowedState (env : Env) (state : State) (session : Session) (id : Text) : State :=
  match state.mem.objects.get? id with
  | none => init env state.disk
  | some obj =>
      let key := cacheKeyOf env session obj
      match state.mem.cache.get? key with
      | some _ => state
      | none =>
          { state with mem := { state.mem with cache := state.mem.cache.set key (grants session obj) } }

def getFlag (mem : Stored) (tick payload : Int) (expected : Text) : Bool :=
  decide (mem.flags.get? (tick, payload) = some expected) &&
    mem.objects.entries.any fun entry => decide (entry.2.data = expected ∧
      entry.2.className = variantClass payload)

def getNoise (env : Env) (mem : Stored) (tick payload : Int) : Bool :=
  match mem.objects.get? (noiseObject env tick payload).id with
  | some obj => obj.isPublic && decide (obj.className = "sample".toList)
  | none => false

/-- What the agent does one after the other. -/
inductive Act where
  | putFlag (tick payload : Int) (flag : Text)
  | putNoise (tick payload : Int)
  | allowed (session : Session) (id : Text)
  | init

def apply (env : Env) (state : State) : Act → State
  | .putFlag tick payload flag => persist (putFlagState env state.mem tick payload flag)
  | .putNoise tick payload => persist (putNoiseState env state.mem tick payload)
  | .allowed session id => allowedState env state session id
  | .init => init env state.disk

/-! Tokens. -/

def tagOf (env : Env) (body64 : Text) : Text :=
  urlEncode (hmac env.sha (bytesOf env.secret) (bytesOf body64))

/-- Share.issue of a body, and Token.sign of an encoded session. -/
def signBody (env : Env) (body : Bytes) : Text := urlEncode body ++ '.' :: tagOf env (urlEncode body)

/-- What Share.verify and Token.verify have in common: the body of a token whose tag is right. -/
def openToken (env : Env) (token : Option Text) : Option Bytes :=
  match cutAt ['.'] (token.getD []) with
  | none => none
  | some (body64, sig) => if tagOf env body64 = sig then urlDecode body64 else none

def signSession (env : Env) (user : Text) (groups : List Text) (now : Int) : Text :=
  signBody env (env.jason.encode ⟨user, groups, now + 86400⟩)

/-- A body that is no session is refused, where the source would fail on some. -/
def verifySession (env : Env) (token : Option Text) (now : Int) : Option Session :=
  match (openToken env token).bind env.jason.decode with
  | none => none
  | some session => if now ≤ session.exp then some session else none

def issueShare (env : Env) (snap : Text) : Text := signBody env (bytesOf snap)

def verifyShare (env : Env) (token : Text) : Option Bytes := openToken env (some token)

/-! Routes. -/

structure Task where
  method : Option Text
  relatedRound : Option Int
  currentRound : Option Int
  variant : Option Int
  flag : Option Text

/-- The clock comes with the requests that read it. -/
inductive Request where
  | service (checkerSecret serviceSecret : Option Text)
  | task (checkerSecret serviceSecret : Option Text) (body : Task)
  | rpc (method : Text) (expr : Option Text) (now : Int)
  | guestSession (now : Int)
  | objects
  | object (id : Text) (session : Option Text) (now : Int)
  | policyEval (session expr : Option Text) (now : Int)
  | snapshotObject (snap id : Text) (tenant : Option Text)
  | shareIssue (snap : Option Text)
  | shareObject (token id : Text)
  | page

structure AttackInfo where
  a : Text
  b : Text
  c : Text
  p : Int
  deriving DecidableEq

/-- planted: with the text of the attack info. -/
inductive Answer where
  | counts (flagVariants noiseVariants havocVariants : Int)
  | done (result : Text)
  | internalError (message : Text)
  | planted (info : Bytes)
  | session (token : Text)
  | catalog (objects : List Listed)
  | object (obj : Obj)
  | deny (reason : Text)
  | allow (obj : Listed) (data : Option Text)
  | simulated
  | shareToken (token : Text)
  | error (status : Nat) (text : Text)
  | page

/-- The object an answer carries with its data. -/
def Answer.shown : Answer → Option (Listed × Text)
  | .object obj => some (obj.toListed, obj.data)
  | .allow obj (some data) => some (obj, data)
  | _ => none

/-- What the checker is told of a planted flag. -/
def attackInfo (obj : Obj) (payload : Int) : AttackInfo := ⟨obj.id, publicObject, obj.snapshot, payload⟩

/-- Jason.encode! of the map; nothing in the ids is escaped. -/
def AttackInfo.text (info : AttackInfo) : Bytes :=
  Json.encode (.object [("a", .string (String.ofList info.a)), ("b", .string (String.ofList info.b)),
    ("c", .string (String.ofList info.c)), ("p", .number (Json.intNumber info.p))])

abbrev Program := Handler State Act Answer

variable (env : Env)

def failed (status : Nat) (text : String) : Answer := .error status text.toList

/-- The first header that is there decides. -/
def authorized (checkerSecret serviceSecret : Option Text) : Bool :=
  match checkerSecret.or serviceSecret with
  | none => false
  | some sent => sent = env.secret

def yes (fine : Bool) : Answer := .done (if fine then "OK".toList else "MUMBLE".toList)

def serveTask (body : Task) : Program :=
  let method := env.cases.upcase (body.method.getD [])
  let tick := (body.relatedRound.or body.currentRound).getD 0
  let payload := body.variant.getD 0
  let flag := body.flag.getD []
  if method = "PUTFLAG".toList then
    if flag = [] then pure (.internalError "missing flag".toList)
    else
      Handler.act (.putFlag tick payload flag) fun _ =>
        .planted (attackInfo (flagObject env tick payload flag) payload).text
  else if method = "GETFLAG".toList then Handler.ask fun state => yes (getFlag state.mem tick payload flag)
  else if method = "PUTNOISE".toList then Handler.act (.putNoise tick payload) fun _ => yes true
  else if method = "GETNOISE".toList then Handler.ask fun state => yes (getNoise env state.mem tick payload)
  else if method = "HAVOC".toList then do
    let _ ← Handler.act (.putNoise tick payload) fun _ => ()
    Handler.ask fun state => yes (!state.mem.objects.entries.isEmpty)
  else pure (yes true)

/-- load, with the patch that refuses private objects and drops the data. -/
def load (id : Text) : Program := do
  match ← Handler.ask fun state => state.mem.objects.get? id with
  | none => pure (failed 200 "missing")
  | some obj =>
      if env.patches.evalData then
        if obj.isPublic then pure (.allow obj.toListed none) else pure (failed 200 "policy_scope_denied")
      else pure (.allow obj.toListed (some obj.data))

def eval (expr : Text) : Program :=
  match PolicyDsl.eval env.cases (!env.patches.unlessKeyword) expr with
  | .scopeDenied => pure (failed 200 "policy_scope_denied")
  | .noRule => pure (.deny "no_rule".toList)
  | .load id => load env id

def listObjects : Program :=
  Handler.ask fun state => .catalog (state.mem.objects.entries.map fun entry => entry.2.toListed)

def guestToken (now : Int) : Text := signSession env guest ["reader".toList] now

def serveObject (id : Text) (session : Option Text) (now : Int) : Program :=
  match verifySession env session now with
  | none => pure (failed 403 "bad_session")
  | some claims => do
      match ← Handler.ask fun state => state.mem.objects.get? id with
      | none => pure (failed 404 "missing")
      | some obj =>
          match ← Handler.act (.allowed claims id) fun state => allowed? env state.mem claims id with
          | none => pure (failed 500 "")
          | some true => pure (.object obj)
          | some false => pure (failed 403 "denied")

/-- Snapshot.read -/
def readSnapshot (snap id : Text) (tenant : Option Text) : Program := do
  match ← Handler.ask fun state => state.mem.snapshots.get? snap with
  | none => pure (failed 404 "missing")
  | some snapshot =>
      if id ∈ snapshot.objects then
        match ← Handler.ask fun state => state.mem.objects.get? id with
        | none => pure (failed 404 "missing")
        | some obj =>
            if (!env.patches.tenantClaim && decide (tenant = some "public".toList)) ||
              obj.isPublic then pure (.object obj)
            else pure (failed 403 "denied")
      else pure (failed 404 "missing")

/-- Enum.all? over the objects of a snapshot, each looked up by a call of its own. -/
def allPublic : List Text → Handler State Act Bool
  | [] => pure true
  | id :: rest => do
      match ← Handler.ask fun state => (state.mem.objects.get? id).any fun obj => obj.isPublic with
      | true => allPublic rest
      | false => pure false

def serveIssue (snap : Text) : Program := do
  match ← Handler.ask fun state => state.mem.snapshots.get? snap with
  | none => pure (failed 404 "missing_snapshot")
  | some snapshot =>
      match ← allPublic snapshot.objects with
      | true => pure (.shareToken (issueShare env snap))
      | false => pure (failed 403 "private_snapshot")

def readObject (id : Text) : Program := do
  match ← Handler.ask fun state => state.mem.objects.get? id with
  | none => pure (failed 404 "missing")
  | some obj => pure (.object obj)

/-- The share read; the patch asks for the id in the snapshot of the token. -/
def serveShare (token id : Text) : Program :=
  match verifyShare env token with
  | none => pure (failed 403 "bad_share_token")
  | some snap =>
      if env.patches.shareBinding then do
        match ← Handler.ask fun state =>
            (String.fromUTF8? snap.toByteArray).bind fun name => state.mem.snapshots.get? name.toList with
        | none => pure (failed 404 "missing_snapshot")
        | some snapshot =>
            if id ∈ snapshot.objects then readObject id else pure (failed 403 "object_not_in_snapshot")
      else readObject id

def serve : Request → Program
  | .service checkerSecret serviceSecret =>
      pure (if authorized env checkerSecret serviceSecret then .counts 3 3 6 else failed 403 "forbidden")
  | .task checkerSecret serviceSecret body =>
      if authorized env checkerSecret serviceSecret then serveTask env body else pure
        (failed 403 "forbidden")
  | .rpc method expr now =>
      if method = "session.guest".toList then pure (.session (guestToken env now))
      else if method = "policy.eval".toList then eval env (expr.getD [])
      else if method = "policy.objects".toList then listObjects
      else if method = "policy.simulate".toList then pure .simulated
      else pure (failed 200 "method_not_found")
  | .guestSession now => pure (.session (guestToken env now))
  | .objects => listObjects
  | .object id session now => serveObject env id session now
  | .policyEval session expr now =>
      match verifySession env session now with
      | none => pure (failed 403 "bad_session")
      | some _ => eval env (expr.getD [])
  | .snapshotObject snap id tenant => readSnapshot env snap id tenant
  | .shareIssue snap => serveIssue env (snap.getD [])
  | .shareObject token id => serveShare env token id
  | .page => pure .page

end KosSim.PolicyForge
