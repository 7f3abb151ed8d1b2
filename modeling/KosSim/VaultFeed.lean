import KosSim.Library.Dict
import KosSim.Library.Hex
import KosSim.Library.Runs
import Mathlib.Algebra.Group.Nat.Defs
import Mathlib.Data.List.Sort

/-!
VaultFeed: the feed sidecar of VaultGrid (feed/main.go). A log file that is only written at
its end, and a table that finds a record's bytes by an offset and a length. Offsets and
lengths are int64 and wrap as Go's do. A body that is no JSON of the request is none; the
clock comes with the request.
-/

namespace KosSim.VaultFeed
open Library

structure AppendReq where
  id : String
  tenant : String
  type : UInt8
  value : String
  length : Option Int64
  deriving DecidableEq

structure RecordRow where
  tenant : String
  type : UInt8
  fileOffset : Int64
  length : Int64
  createdAt : Int64
  deriving DecidableEq

structure App where
  log : List UInt8 := []
  records : Dict String RecordRow := Dict.empty
  secret : String := "rotate-secret"
  deriving DecidableEq

inductive Response where
  | error (code : Nat) (text : String)
  | appended (id tenant : String) (offset length : Int64)
  | shown (id tenant : String) (type : UInt8) (length : Int64) (valueHex : String)
  | listed (records : List (String × RecordRow)) (tenant : String)
  | panicked
  deriving DecidableEq

/-- A missing header is the empty text. -/
def requireSecret (app : App) (header : String) : Bool := decide (header = app.secret)

/-! Appending. -/

/-- No slice is longer (linux/amd64): making one panics, and net/http drops the request. -/
def maxAlloc : Nat := 2 ^ 48

/-- binary.BigEndian.PutUint32 of the length's low 32 bits. -/
def putUint32 (stated : Int64) : List UInt8 :=
  let n := stated.toUInt64.toNat
  [UInt8.ofNat (n / 2 ^ 24), UInt8.ofNat (n / 2 ^ 16), UInt8.ofNat (n / 2 ^ 8), UInt8.ofNat n]

def statedLength (body : AppendReq) (value : List UInt8) : Int64 :=
  body.length.getD (Int64.ofNat value.length)

/-- The append under the lock; `Seek` to the end is where the header goes. -/
def store (app : App) (body : AppendReq) (value : List UInt8) (now : Int64) : App :=
  { app with
    log := app.log ++ body.type :: putUint32 (statedLength body value) ++ value
    records := app.records.set body.id
      ⟨body.tenant, body.type, Int64.ofNat app.log.length + 5, statedLength body value, now⟩ }

def handleAppend (app : App) (header : String) (request : Option AppendReq) (now : Int64) :
    App × Response :=
  match request with
  | none => (app, .error 400 "bad_json")
  | some body =>
      match hexDecode body.value with
      | none => (app, .error 400 "bad_hex")
      | some value =>
          if maxAlloc < value.length then (app, .panicked)
          else if body.id = "" ∨ body.tenant = "" then (app, .error 400 "missing_field")
          else if body.tenant ≠ "public" ∧ !requireSecret app header then (app, .error 403 "forbidden")
          else (store app body value now,
            .appended body.id body.tenant (Int64.ofNat app.log.length) (statedLength body value))

/-! Reading. -/

inductive ReadResult where
  | bytes (buf : List UInt8)
  | failed (text : String)
  | panicked
  deriving DecidableEq

/-- ReadAt into a buffer of zeros; the end of the file is no error here. -/
def readAt (log : List UInt8) (offset length : Nat) : List UInt8 :=
  let read := (log.drop offset).take length
  read ++ List.replicate (length - read.length) 0

def clampLength (offset length fileEnd : Int64) : Int64 :=
  let within := if fileEnd < offset + length then fileEnd - offset else length
  if within < 0 then 0 else within

def readBytes (log : List UInt8) (offset length : Int64) : ReadResult :=
  let fileEnd := Int64.ofNat log.length
  if fileEnd < offset then .failed "offset past end"
  else
    let size := (clampLength offset length fileEnd).toNatClampNeg
    if maxAlloc < size then .panicked
    else if offset < 0 then .failed "negative offset"
    else .bytes (readAt log offset.toNatClampNeg size)

def handleShow (app : App) (id tenant : String) : Response :=
  if id = "" ∨ tenant = "" then .error 400 "missing_field"
  else
    match app.records.get? id with
    | none => .error 404 "not_found"
    | some row =>
        if row.tenant ≠ tenant then .error 403 "wrong_tenant"
        else
          match readBytes app.log row.fileOffset row.length with
          | .failed _ => .error 500 "read"
          | .panicked => .panicked
          | .bytes buf => .shown id row.tenant row.type row.length (hexEncode buf)

def handleList (app : App) (query : String) : Response :=
  let tenant := if query = "" then "public" else query
  let rows := app.records.entries.filter fun entry => decide (entry.2.tenant = tenant)
  .listed ((rows.insertionSort fun one other => one.2.fileOffset ≤ other.2.fileOffset).take 200) tenant

/-! The requests, each with its X-Checker-Secret header. -/

inductive Request where
  | appendRecord (body : Option AppendReq) (now : Int64)
  | showRecord (id tenant : String)
  | listRecords (tenant : String)

/-- A file holds fewer than 2^63 bytes: a write past that fails, and the run ends there. -/
def step (app : App) (call : String × Request) : Option App :=
  match call.2 with
  | .appendRecord body now =>
      let after := (handleAppend app call.1 body now).1
      if after.log.length < 2 ^ 63 then some after else none
  | .showRecord _ _ => some app
  | .listRecords _ => some app

def run : App → List (String × Request) → Option App := exec step fun _ _ => True

end KosSim.VaultFeed
