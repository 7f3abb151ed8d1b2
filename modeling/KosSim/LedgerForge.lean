import KosSim.Ledger

/-!
LedgerForge: the state of state.rs (the tables of its SQLite file and the maps it keeps of
two of them) under the checker's methods, the indexer, the requests that write, and a
restart. A handler holds the lock of the state from its first read to its last write. The
clock, the random ids and the salted hashes come with the input.
-/

namespace KosSim.LedgerForge
open Library Ledger

structure Snapshot where
  id : String
  publicLabel : String
  docIds : List String
  deriving DecidableEq

/-! The tables. -/

structure DocRow where
  path : String
  className : String
  owner : String
  body : String
  isPublic : Bool
  snapshot : String
  tick : Int
  createdAt : Int
  deriving DecidableEq

structure SnapshotRow where
  publicLabel : String
  docIds : List String
  createdAt : Int
  deriving DecidableEq

structure Settlement where
  branch : String
  body : String
  publicScope : String
  publicToken : String
  tick : Int
  createdAt : Int
  deriving DecidableEq

structure Receipt where
  body : String
  scope : String
  tick : Int
  createdAt : Int
  deriving DecidableEq

structure Viewer where
  scopes : List String
  createdAt : Int
  deriving DecidableEq

structure Policy where
  maxBodyBytes : Int
  retentionTicks : Int
  allowedSigners : String
  updatedAt : Int
  deriving DecidableEq

structure Replica where
  lastSeenAt : Int
  cursor : String
  deriving DecidableEq

structure UserRow where
  username : String
  passwordHash : String
  role : String
  createdAt : Int
  deriving DecidableEq

structure Session where
  userId : Nat
  expiresAt : Int
  deriving DecidableEq

structure Tables where
  docs : Dict String DocRow := Dict.empty
  snapshots : Dict String SnapshotRow := Dict.empty
  flagIndex : Dict (Int × Nat) String := Dict.empty
  settlements : Dict String Settlement := Dict.empty
  treasuryReceipts : Dict Nat Receipt := Dict.empty
  receiptSeq : Nat := 0
  treasuryViewers : Dict String Viewer := Dict.empty
  policies : Dict String Policy := Dict.empty
  replicas : Dict String Replica := Dict.empty
  users : Dict Nat UserRow := Dict.empty
  userSeq : Nat := 0
  sessions : Dict String Session := Dict.empty

structure AppState where
  db : Tables
  docs : Dict String Doc := Dict.empty
  pathIndex : Dict String String := Dict.empty
  snapshots : Dict String Snapshot := Dict.empty

/-- What the process is started with; passwords and cookies are checked by crates. -/
structure Env where
  team : String := "team"
  service : String := "svc1"
  checkerSecret : String := "rotate-secret"
  bootFlag : String := "FLAG\x7bBOOT_LEDGERFORGE\x7d"
  sha : List UInt8 → List UInt8 := Sha256.sha256
  verifyPassword : String → String → Bool
  signSession : Nat → Int → String
  verifySession : String → Option (Nat × Int)

def shortHash (env : Env) (input : String) : String := hexEncode ((env.sha (utf8 input)).take 10)

def signSettlementToken (env : Env) (id : String) (viewer : List UInt8) : String :=
  hexEncode ((env.sha (utf8 env.checkerSecret ++ utf8 "|" ++ utf8 id ++ utf8 "|" ++ viewer)).take 32)

/-! Documents. -/

def rowOf (doc : Doc) (tick now : Int) : DocRow :=
  ⟨doc.path, doc.className, doc.owner, doc.body, doc.isPublic, doc.snapshot, tick, now⟩

def docOf (id : String) (row : DocRow) : Doc :=
  ⟨id, row.path, row.className, row.owner, row.body, row.isPublic, row.snapshot⟩

def upsertDoc (state : AppState) (doc : Doc) (tick now : Int) : AppState :=
  { state with
    db := { state.db with docs := state.db.docs.set doc.id (rowOf doc tick now) }
    pathIndex := state.pathIndex.set doc.path doc.id
    docs := state.docs.set doc.id doc }

def upsertSnapshot (state : AppState) (snap : Snapshot) (now : Int) : AppState :=
  { state with
    db := { state.db with snapshots := state.db.snapshots.set snap.id ⟨snap.publicLabel, snap.docIds, now⟩ }
    snapshots := state.snapshots.set snap.id snap }

def indexFlag (state : AppState) (tick : Int) (variant : Nat) (flag : String) : AppState :=
  { state with db := { state.db with flagIndex := state.db.flagIndex.set (tick, variant) flag } }

def reload (state : AppState) : AppState :=
  { state with
    docs := state.db.docs.mapEntries docOf
    pathIndex := Dict.ofList (state.db.docs.entries.map fun entry => (entry.2.path, entry.1))
    snapshots := state.db.snapshots.mapEntries fun id row => ⟨id, row.publicLabel, row.docIds⟩ }

/-! The checker's methods. -/

def vaultText (env : Env) (tick : Int) (flag : String) : String :=
  "vault:" ++ env.team ++ ":" ++ toString tick ++ ":" ++ flag

def snapText (env : Env) (tick : Int) (flag : String) : String :=
  "snap:" ++ env.team ++ ":" ++ toString tick ++ ":" ++ flag

def noiseText (env : Env) (tick : Int) (payload : Nat) : String :=
  "noise:" ++ env.team ++ ":" ++ toString tick ++ ":" ++ toString payload

def vaultDoc (env : Env) (tick : Int) (flag : String) : Doc where
  id := shortHash env (vaultText env tick flag)
  path := "/vault/" ++ shortHash env (vaultText env tick flag)
  className := "wire-transfer"
  owner := "checker"
  body := flag
  isPublic := false
  snapshot := shortHash env (snapText env tick flag)

/-- serde_json's text of an object whose keys are sorted and whose values need no escapes. -/
def objectText (fields : List (String × String)) : String :=
  "\x7b" ++ String.intercalate "," (fields.map fun field => "\"" ++ field.1 ++ "\":" ++ field.2) ++ "\x7d"

def quoted (text : String) : String := "\"" ++ text ++ "\""

def putFlagVault (env : Env) (state : AppState) (tick : Int) (flag : String) (now : Int) :
    AppState × String :=
  let doc := vaultDoc env tick flag
  let written := upsertDoc state doc tick now
  let snapped := upsertSnapshot written ⟨doc.snapshot, "public-ledger-delta", [doc.id]⟩ now
  (indexFlag snapped tick 0 flag, objectText [("a", quoted doc.id), ("b", quoted doc.snapshot),
    ("c", quoted "wire-transfer"), ("d", quoted "guest-mirror"), ("p", "0"), ("t", toString tick)])

/-- settlements are inserted; a taken id is an error that this method passes over. -/
def insertSettlement (state : AppState) (id : String) (row : Settlement) : Option AppState :=
  (insertNew state.db.settlements id row).map fun table => { state with
    db := { state.db with settlements := table } }

def insertReceipt (state : AppState) (row : Receipt) : AppState × Nat :=
  let id := state.db.receiptSeq + 1
  ({ state with
      db := { state.db with
        treasuryReceipts := state.db.treasuryReceipts.set id row, receiptSeq := id } }, id)

def putFlagSettlement (env : Env) (state : AppState) (tick : Int) (flag id : String) (now : Int) :
    AppState × String :=
  let token := signSettlementToken env id (utf8 "public")
  -- The flag is indexed even where the INSERT failed.
  let written :=
    (insertSettlement state id ⟨"settlement-note", flag, "public", token, tick, now⟩).getD state
  (indexFlag written tick 1 flag, objectText [("a", quoted id), ("b", quoted "public"), ("p", "1"),
    ("t", toString tick), ("token", quoted token)])

def putFlagTreasury (state : AppState) (tick : Int) (flag : String) (now : Int) : AppState × String :=
  let (written, id) := insertReceipt state ⟨flag, "treasury", tick, now⟩
  let viewed := { written with
    db := { written.db with
      treasuryViewers := insertOrIgnore written.db.treasuryViewers "public-viewer" ⟨[], now⟩ } }
  (indexFlag viewed tick 2 flag, objectText [("a", toString id), ("b", quoted "public-viewer"), ("p", "2"),
    ("t", toString tick)])

/-- `put_flag`; every payload but 1 and 2 goes to the vault. The id is what random_id draws for a
settlement. -/
def putFlag (env : Env) (state : AppState) (tick : Int) (payload : Nat) (flag id : String) (now : Int) :
    AppState × String :=
  match payload with
  | 1 => putFlagSettlement env state tick flag id now
  | 2 => putFlagTreasury state tick flag now
  | _ => putFlagVault env state tick flag now

def getFlag (state : AppState) (tick : Int) (payload : Nat) (expected : String) : Bool :=
  match state.db.flagIndex.get? (tick, payload) with
  | none => false
  | some stored =>
      if stored = expected then
        match payload with
        | 0 => state.docs.entries.any fun entry => decide (entry.2.body = expected)
        | 1 => state.db.settlements.entries.any fun entry => decide (entry.2.body = expected)
        | 2 => state.db.treasuryReceipts.entries.any fun entry => decide (entry.2.body = expected)
        | _ => false
      else false

def noiseDoc (env : Env) (state : AppState) (tick : Int) (payload : Nat) : Doc where
  id := shortHash env (noiseText env tick payload)
  path := "/public/noise/" ++ shortHash env (noiseText env tick payload)
  className := "public"
  owner := "noise"
  body := "sample:" ++ env.service ++ ":" ++ toString tick ++ ":" ++ toString payload ++ ":" ++
    merkleRoot env.sha state.docs
  isPublic := true
  snapshot := "noise"

def putNoiseSettlement (env : Env) (state : AppState) (tick : Int) (id : String) (now : Int) : AppState :=
  (insertSettlement state id ⟨"public-noise", "settlement-noise:" ++ env.service ++ ":" ++
    toString tick, "public", signSettlementToken env id (utf8 "public"), tick, now⟩).getD state

def putNoiseTreasury (env : Env) (state : AppState) (tick now : Int) : AppState :=
  let scope := "noise:" ++ toString tick
  let written :=
    (insertReceipt state ⟨"treasury-noise:" ++ env.service ++ ":" ++ toString tick, scope, tick, now⟩).1
  { written with
    db := { written.db with
      treasuryViewers := written.db.treasuryViewers.set ("noise-viewer-" ++ toString tick)
        ⟨[scope], now⟩ } }

def putNoise (env : Env) (state : AppState) (tick : Int) (payload : Nat) (id : String) (now : Int) :
    AppState :=
  match payload with
  | 1 => putNoiseSettlement env state tick id now
  | 2 => putNoiseTreasury env state tick now
  | _ => upsertDoc state (noiseDoc env state tick payload) tick now

/-- `havoc` lists the public documents; what it answers is all that it does. -/
def havoc (env : Env) (state : AppState) : Bool :=
  !state.docs.entries.isEmpty && decide (merkleRoot env.sha state.docs ≠ "")

/-! The indexer. -/

def noiseRetentionMs : Int := 30 * 60000

def prunable (cutoff : Int) (row : DocRow) : Bool :=
  decide (row.className = "public") && decide (row.owner = "noise") && decide (row.createdAt < cutoff)

def pruneOne (state : AppState) (entry : String × DocRow) : AppState :=
  { state with
    db := { state.db with docs := removeKey state.db.docs entry.1 }
    docs := removeKey state.docs entry.1
    pathIndex := removeKey state.pathIndex entry.2.path }

def pruneNoise (state : AppState) (now retentionMs : Int) : AppState :=
  (state.db.docs.entries.filter fun entry => prunable (now - retentionMs) entry.2).foldl pruneOne state

def cycle (state : AppState) (now : Int) : AppState :=
  let pruned := pruneNoise state now noiseRetentionMs
  { pruned with
    db := { pruned.db with
      sessions := pruned.db.sessions.filter fun _ row => decide (now / 1000 ≤ row.expiresAt) } }

/-! Starting the process. -/

def welcomeRow (now : Int) : DocRow :=
  ⟨"/public/welcome", "public", "guest", "LedgerForge mirror online. Query window: 32 records.", true,
    "boot", 0, now⟩

def seedPolicies (now : Int) (policies : Dict String Policy) : Dict String Policy :=
  [("public", 65536, 16), ("vault", 16384, 32), ("settlement", 32768, 24), ("treasury", 8192, 64)].foldl
    (fun table (entry : String × Int × Int) => insertOrIgnore table entry.1 ⟨entry.2.1, entry.2.2,
      "cli,analyst", now⟩) policies

/-- `seed`: none is the error that open_at passes on and the process dies of. -/
def seed (db : Tables) (now : Int) : Option Tables :=
  if db.docs.contains "welcome-ledger" then some db
  else
    (insertNew db.snapshots "boot" ⟨"boot-public", ["welcome-ledger"], now⟩).map fun snapshots =>
      { db with
        docs := db.docs.set "welcome-ledger" (welcomeRow now)
        snapshots := snapshots
        treasuryViewers := insertOrIgnore db.treasuryViewers "public-viewer" ⟨[], now⟩
        policies := seedPolicies now db.policies }

def bootFlags (env : Env) (state : AppState) (id : String) (now : Int) : AppState :=
  if state.db.flagIndex.contains (0, 0) then state
  else
    let first := (putFlag env state 0 0 env.bootFlag id now).1
    let second := (putFlag env first 0 1 (env.bootFlag ++ "_SETTLEMENT") id now).1
    (putFlag env second 0 2 (env.bootFlag ++ "_TREASURY") id now).1

/-- The process on the tables that it finds. -/
def boot (env : Env) (db : Tables) (id : String) (now : Int) : Option AppState :=
  (seed db now).map fun seeded => bootFlags env (reload ⟨seeded, Dict.empty, Dict.empty, Dict.empty⟩) id now

/-! Requests. -/

/-- A status with an error text. -/
abbrev Refusal := Nat × String

def findUserByName (db : Tables) (name : String) : Option (Nat × UserRow) :=
  db.users.entries.find? fun entry => decide (entry.2.username = name)

def currentUser (env : Env) (state : AppState) (cookie : Option String) (now : Int) :
    Option (Nat × UserRow) :=
  match cookie with
  | none => none
  | some token =>
      match env.verifySession token with
      | none => none
      | some (uid, exp) =>
          if exp < now / 1000 then none
          else
            match state.db.sessions.get? token with
            | none => none
            | some row =>
                if row.expiresAt < now / 1000 then none else (state.db.users.get? uid).map
                  fun user => (uid, user)

def commitText (state : AppState) (branch body : String) : String :=
  branch ++ ":" ++ body ++ ":" ++ toString state.docs.entries.length

def commitDoc (env : Env) (state : AppState) (branch body signer : String) : Doc :=
  let id := shortHash env (commitText state branch body)
  { id := id
    path := "/public/branch/" ++ trimSlashes (normalizePath branch) ++ "/" ++ id
    className := branch
    owner := signer
    body := body
    isPublic := true
    snapshot := "cli" }

/-- `cli_commit`: the id, the root and the signer. -/
def cliCommit (env : Env) (state : AppState) (cookie : Option String) (now : Int) (branch body : String)
    (signer : Option String) : AppState × Except Refusal (String × String × String) :=
  match currentUser env state cookie now with
  | none => (state, .error (401, "auth_required"))
  | some (_, user) =>
      let doc := commitDoc env state branch body (signer.getD user.username)
      let written := upsertDoc state doc 0 now
      (written, .ok (doc.id, merkleRoot env.sha written.docs, doc.owner))

def createSettlement (env : Env) (state : AppState) (cookie : Option String) (now : Int)
    (branch body id : String) :
    AppState × Except Refusal (String × String) :=
  match currentUser env state cookie now with
  | none => (state, .error (401, "auth_required"))
  | some _ =>
      let token := signSettlementToken env id (utf8 "public")
      match insertSettlement state id ⟨branch, body, "public", token, 0, now⟩ with
      | none => (state, .error (500, "insert_failed"))
      | some written => (written, .ok (id, token))

def createReceipt (env : Env) (state : AppState) (cookie : Option String) (now : Int)
    (body scope : String) :
    AppState × Except Refusal Nat :=
  match currentUser env state cookie now with
  | none => (state, .error (401, "auth_required"))
  | some (_, user) =>
      if user.role ≠ "admin" ∧ user.role ≠ "analyst" then (state, .error (403, "forbidden"))
      else
        let (written, id) := insertReceipt state ⟨body, scope, 0, now⟩
        (written, .ok id)

/-- The three handlers that only an admin passes. -/
def asAdmin {α : Type} (env : Env) (state : AppState) (cookie : Option String) (now : Int)
    (act : AppState × Except Refusal α) : AppState × Except Refusal α :=
  match currentUser env state cookie now with
  | none => (state, .error (401, "auth_required"))
  | some (_, user) => if user.role ≠ "admin" then (state, .error (403, "admin_only")) else act

def createViewer (env : Env) (state : AppState) (cookie : Option String) (now : Int) (key : String)
    (scopes : List String) : AppState × Except Refusal Unit :=
  asAdmin env state cookie now
    ({ state with
      db := { state.db with treasuryViewers := state.db.treasuryViewers.set key ⟨scopes, now⟩ } }, .ok ())

def deleteViewer (env : Env) (state : AppState) (cookie : Option String) (now : Int) (key : String) :
    AppState × Except Refusal Unit :=
  asAdmin env state cookie now
    ({ state with db := { state.db with treasuryViewers := removeKey state.db.treasuryViewers key } },
      .ok ())

/-- Rust's char::is_whitespace. -/
def isWhitespace (c : Char) : Bool :=
  let n := c.val.toNat
  decide (9 ≤ n ∧ n ≤ 13 ∨ n = 32 ∨ n = 0x85 ∨ n = 0xa0 ∨ n = 0x1680 ∨ 0x2000 ≤ n ∧ n ≤ 0x200a ∨
    n = 0x2028 ∨ n = 0x2029 ∨ n = 0x202f ∨ n = 0x205f ∨ n = 0x3000)

def trim (text : List Char) : List Char :=
  ((text.dropWhile isWhitespace).reverse.dropWhile isWhitespace).reverse

def trimmedSigners (signers : String) : String :=
  String.ofList (List.intercalate [','] (((signers.toList.splitOn ',').map trim).filter (· ≠ [])))

def clamp (low high value : Int) : Int := max low (min high value)

def updatePolicy (env : Env) (state : AppState) (cookie : Option String) (now : Int) (name : String)
    (maxBodyBytes retentionTicks : Option Int) (allowedSigners : Option String) :
    AppState × Except Refusal Policy :=
  asAdmin env state cookie now
    (match state.db.policies.get? name with
    | none => (state, .error (404, "not_found"))
    | some row =>
        let policy : Policy := ⟨(maxBodyBytes.map (clamp 64 1048576)).getD row.maxBodyBytes,
          (retentionTicks.map (clamp 1 256)).getD row.retentionTicks,
          (allowedSigners.map trimmedSigners).getD row.allowedSigners, now⟩
        ({ state with db := { state.db with policies := state.db.policies.set name policy } }, .ok policy))

def heartbeat (state : AppState) (now : Int) (peer : String) (cursor : Option String) : AppState :=
  { state with db := { state.db with replicas := state.db.replicas.set peer ⟨now, cursor.getD "0"⟩ } }

/-- The UPDATE of `since`; the rest of it reads. -/
def since (state : AppState) (now : Int) (peer cursor : String) : AppState :=
  { state with db := { state.db with replicas := state.db.replicas.modify peer fun _ => ⟨now, cursor⟩ } }

def validUsername (name : String) : Bool :=
  decide (3 ≤ (utf8 name).length) && decide ((utf8 name).length ≤ 32) &&
    name.toList.all fun c => c.isAlphanum || c = '_' || c = '.' || c = '-'

def sessionTtlSeconds : Int := 4 * 3600

def issueSession (env : Env) (state : AppState) (uid : Nat) (now : Int) : AppState × String :=
  let exp := now / 1000 + sessionTtlSeconds
  let cookie := env.signSession uid exp
  ({ state with db := { state.db with sessions := state.db.sessions.set cookie ⟨uid, exp⟩ } }, cookie)

/-- The hash is the salted one that hash_password makes. -/
def register (env : Env) (state : AppState) (now : Int) (username password hash : String) :
    AppState × Except Refusal (Nat × String) :=
  if !validUsername username then (state, .error (400, "invalid_username"))
  else if (utf8 password).length < 8 then (state, .error (400, "weak_password"))
  else if (findUserByName state.db username).isSome then (state, .error (409, "duplicate"))
  else
    let uid := state.db.userSeq + 1
    let added := { state with
      db := { state.db with
        users := state.db.users.set uid ⟨username, hash, "analyst", now⟩, userSeq := uid } }
    let (written, cookie) := issueSession env added uid now
    (written, .ok (uid, cookie))

def login (env : Env) (state : AppState) (now : Int) (username password : String) :
    AppState × Except Refusal (Nat × String) :=
  match findUserByName state.db username with
  | none => (state, .error (401, "bad_credentials"))
  | some (uid, user) =>
      if env.verifyPassword user.passwordHash password then
        let (written, cookie) := issueSession env state uid now
        (written, .ok (uid, cookie))
      else (state, .error (401, "bad_credentials"))

def logout (state : AppState) (cookie : Option String) : AppState :=
  match cookie with
  | none => state
  | some token => { state with db := { state.db with sessions := removeKey state.db.sessions token } }

/-! Reading a document. The grant is a scope that verify_grant has passed. -/

inductive ReadOutcome where
  | refused (refusal : Refusal)
  | shown (id path body root : String)
  | panicked
  deriving DecidableEq

/-- Indexing a HashMap panics on a missing key. -/
def readDoc (env : Env) (state : AppState) (path : String) (grant : Option String) : ReadOutcome :=
  match grant with
  | none => .refused (403, "bad_grant")
  | some scope =>
      if !(utf8 scope).isPrefixOf (utf8 path) then .refused (403, "scope_denied")
      else
        match state.pathIndex.get? (normalizePath path) with
        | none => .refused (404, "missing")
        | some docId =>
            match state.docs.get? docId with
            | none => .panicked
            | some doc => .shown doc.id (normalizePath path) doc.body (merkleRoot env.sha state.docs)

/-! The system. -/

inductive Input where
  | putFlag (tick : Int) (payload : Nat) (flag id : String) (now : Int)
  | putNoise (tick : Int) (payload : Nat) (id : String) (now : Int)
  | havoc (tick : Int) (payload : Nat)
  | cycle (now : Int)
  | restart (id : String) (now : Int)
  | commit (cookie : Option String) (now : Int) (branch body : String) (signer : Option String)
  | createSettlement (cookie : Option String) (now : Int) (branch body id : String)
  | createReceipt (cookie : Option String) (now : Int) (body scope : String)
  | createViewer (cookie : Option String) (now : Int) (key : String) (scopes : List String)
  | deleteViewer (cookie : Option String) (now : Int) (key : String)
  | updatePolicy (cookie : Option String) (now : Int) (name : String)
      (maxBodyBytes retentionTicks : Option Int) (allowedSigners : Option String)
  | heartbeat (now : Int) (peer : String) (cursor : Option String)
  | since (now : Int) (peer cursor : String)
  | register (now : Int) (username password hash : String)
  | login (now : Int) (username password : String)
  | logout (cookie : Option String)
  | read (path : String) (grant : Option String)

/-- Only a restart can fail. -/
def step (env : Env) (state : AppState) : Input → Option AppState
  | .putFlag tick payload flag id now => some (putFlag env state tick payload flag id now).1
  | .putNoise tick payload id now => some (putNoise env state tick payload id now)
  | .havoc _ _ => some state
  | .cycle now => some (cycle state now)
  | .restart id now => boot env state.db id now
  | .commit cookie now branch body signer => some (cliCommit env state cookie now branch body signer).1
  | .createSettlement cookie now branch body id =>
      some (createSettlement env state cookie now branch body id).1
  | .createReceipt cookie now body scope => some (createReceipt env state cookie now body scope).1
  | .createViewer cookie now key scopes => some (createViewer env state cookie now key scopes).1
  | .deleteViewer cookie now key => some (deleteViewer env state cookie now key).1
  | .updatePolicy cookie now name maxBodyBytes retentionTicks allowedSigners =>
      some (updatePolicy env state cookie now name maxBodyBytes retentionTicks allowedSigners).1
  | .heartbeat now peer cursor => some (heartbeat state now peer cursor)
  | .since now peer cursor => some (since state now peer cursor)
  | .register now username password hash => some (register env state now username password hash).1
  | .login now username password => some (login env state now username password).1
  | .logout cookie => some (logout state cookie)
  | .read _ _ => some state

end KosSim.LedgerForge
