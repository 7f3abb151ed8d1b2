import KosSim.Library.Dict
import KosSim.Library.Json
import Mathlib.Data.List.Sort

/-!
The store of svc4-nanofleet (state.go): four maps that every operation writes to state.json as a
whole, and that New reads back from there. The lock orders the operations; jobs/latest.log is
written beside and never read.
-/

namespace KosSim.NanoFleet
open Library

structure Node where
  id : String
  blob : String
  payload : Int64
  kind : String
  data : String
  deriving DecidableEq

structure Job where
  id : String
  nodeId : String
  template : String
  state : String
  result : String
  deriving DecidableEq

structure Store where
  team : String
  service : String
  secret : String
  flags : Dict String String
  nodes : Dict String Node
  blobToId : Dict String String
  jobs : Dict String Job

/-! state.json -/

def nodeJson (node : Node) : Json :=
  .object ([("id", .string node.id), ("blob", .string node.blob),
    ("payload", .number (Json.intNumber node.payload.toInt)), ("kind", .string node.kind)] ++
    if node.data = "" then [] else [("data", .string node.data)])

def jobJson (job : Job) : Json :=
  .object [("id", .string job.id), ("node_id", .string job.nodeId), ("template", .string job.template),
    ("state", .string job.state), ("result", .string job.result)]

/-- encoding/json writes a map by its keys. -/
def sorted {α : Type} (dict : Dict String α) : List (String × α) :=
  dict.entries.insertionSort fun one other => one.1 ≤ other.1

def mapMembers {α : Type} (value : α → Json) (dict : Dict String α) : List (String × Json) :=
  (sorted dict).map fun entry => (entry.1, value entry.2)

def diskMembers (store : Store) : List (String × Json) :=
  [("flags", .object (mapMembers .string store.flags)),
    ("nodes", .object (mapMembers nodeJson store.nodes)),
    ("blob_to_id", .object (mapMembers .string store.blobToId)),
    ("jobs", .object (mapMembers jobJson store.jobs))]

def marshal (store : Store) : Json.Bytes := (Json.object (diskMembers store)).encode

/-- The last field of the name; one that is missing or null leaves the zero value. -/
def field (name : String) (members : List (String × Json)) : Json :=
  ((members.reverse.find? fun member => member.1 = name).map (·.2)).getD .null

def stringOf : Json → Option String
  | .string value => some value
  | .null => some ""
  | _ => none

def intOf : Json → Option Int64
  | .number value => Json.int64Of value
  | .null => some 0
  | _ => none

def membersOf : Json → Option (List (String × Json))
  | .object members => some members
  | .null => some []
  | _ => none

def nodeOf (json : Json) : Option Node := do
  let members ← membersOf json
  return ⟨← stringOf (field "id" members), ← stringOf (field "blob" members),
    ← intOf (field "payload" members), ← stringOf (field "kind" members),
    ← stringOf (field "data" members)⟩

def jobOf (json : Json) : Option Job := do
  let members ← membersOf json
  return ⟨← stringOf (field "id" members), ← stringOf (field "node_id" members),
    ← stringOf (field "template" members), ← stringOf (field "state" members),
    ← stringOf (field "result" members)⟩

/-- A map that is missing or null stays nil. -/
def mapOf {α : Type} (value : Json → Option α) : Json → Option (Option (Dict String α))
  | .null => some none
  | .object members =>
      (members.mapM fun member => (value member.2).map fun found => (member.1, found)).map fun pairs =>
        some (Dict.ofList pairs)
  | _ => none

structure DiskState where
  flags : Option (Dict String String)
  nodes : Option (Dict String Node)
  blobToId : Option (Dict String String)
  jobs : Option (Dict String Job)

/-- Of a field that stands twice or in another case this takes less than encoding/json does; no save
writes such a text. -/
def unmarshal (raw : Json.Bytes) : Option DiskState := do
  let members ← membersOf (← Json.parse raw)
  return ⟨← mapOf stringOf (field "flags" members), ← mapOf nodeOf (field "nodes" members),
    ← mapOf stringOf (field "blob_to_id" members), ← mapOf jobOf (field "jobs" members)⟩

/-! The operations, on the store and on the bytes of state.json. -/

structure State where
  store : Store
  disk : Option Json.Bytes

/-- A file that is not there or that does not parse is passed over. -/
def load (store : Store) (disk : Option Json.Bytes) : Store :=
  match disk.bind unmarshal with
  | none => store
  | some snap =>
      { store with
        flags := snap.flags.getD store.flags
        nodes := snap.nodes.getD store.nodes
        blobToId := snap.blobToId.getD store.blobToId
        jobs := snap.jobs.getD store.jobs }

def persist (store : Store) : State := ⟨store, some (marshal store)⟩

def key (tick payload : Int64) : String := toString tick.toInt ++ ":" ++ toString payload.toInt

section Hash
variable (sha : List UInt8 → List UInt8)

def shortHash (text : String) : String := String.ofList ((hexEncode (sha (utf8 text))).toList.take 18)

def blobOf (id : String) : String := shortHash sha ("blob:" ++ id)

def addNode (store : Store) (node : Node) : Store :=
  { store with nodes := store.nodes.set node.id node, blobToId := store.blobToId.set node.blob node.id }

def flagText (team : String) (tick payload : Int64) (flag : String) : String :=
  team ++ ":" ++ key tick payload ++ ":" ++ flag

def flagKind (payload : Int64) : String :=
  if payload = 1 then "manifest" else if payload = 2 then "diagnostic" else "secret"

def flagNode (team : String) (tick payload : Int64) (flag : String) : Node :=
  let id := shortHash sha (flagText team tick payload flag)
  ⟨id, blobOf sha id, payload, flagKind payload, flag⟩

/-- json.Marshal of what the checker publishes as attack info. -/
def flagInfo (node : Node) : Json.Bytes :=
  (Json.object [("a", .string node.id), ("b", .string node.blob),
    ("p", .number (Json.intNumber node.payload.toInt))]).encode

def putFlag (state : State) (tick payload : Int64) (flag : String) : State × Json.Bytes :=
  let node := flagNode sha state.store.team tick payload flag
  (persist (addNode { state.store with flags := state.store.flags.set (key tick payload) flag } node),
    flagInfo node)

/-- A flag that is missing reads as the empty one. -/
def getFlag (store : Store) (tick payload : Int64) (expected : String) : Bool :=
  decide ((store.flags.get? (key tick payload)).getD "" = expected) &&
    store.nodes.entries.any fun entry => entry.2.data = expected && entry.2.payload = payload

def noiseText (team : String) (tick payload : Int64) : String := team ++ ":noise:" ++ key tick payload

def noiseNode (team service : String) (tick payload : Int64) : Node :=
  let id := shortHash sha (noiseText team tick payload)
  ⟨id, blobOf sha id, payload, "public", "sample:" ++ service ++ ":" ++ key tick payload⟩

def putNoise (state : State) (tick payload : Int64) : State :=
  persist (addNode state.store (noiseNode sha state.store.team state.store.service tick payload))

def getNoise (store : Store) (tick payload : Int64) : Bool :=
  ((store.nodes.get? (shortHash sha (noiseText store.team tick payload))).map (·.kind)) = some "public"

def havoc (state : State) (tick payload : Int64) : State × Bool :=
  let after := putNoise sha state tick payload
  (after, !after.store.nodes.entries.isEmpty && !after.store.blobToId.entries.isEmpty)

def agentText (team label : String) : String := team ++ ":agent:" ++ label

def agentNode (team label : String) : Node :=
  let id := shortHash sha (agentText team label)
  ⟨id, blobOf sha id, 0, "agent", "ready:" ++ label⟩

def registerNode (state : State) (label : String) : State × Node :=
  let node := agentNode sha state.store.team label
  (persist (addNode state.store node), node)

def jobText (team nodeId template : String) (count : Nat) : String :=
  team ++ ":job:" ++ nodeId ++ ":" ++ template ++ ":" ++ toString count

/-- A node that is missing reads as the zero node. -/
def scheduled (store : Store) (nodeId template : String) : Job :=
  let kind := ((store.nodes.get? nodeId).map (·.kind)).getD ""
  ⟨shortHash sha (jobText store.team nodeId template store.jobs.entries.length), nodeId, template,
    "SUCCESS", "ok:" ++ kind⟩

def schedule (state : State) (nodeId template : String) : State × Job :=
  let job := scheduled sha state.store nodeId template
  (persist { state.store with jobs := state.store.jobs.set job.id job }, job)

/-- The environment of a start: TEAM_NAME, SERVICE_NAME, SERVICE_PUSH_SECRET and BOOT_FLAG. -/
structure Boot where
  team : String
  service : String
  secret : String
  boot : String

def orDefault (value fallback : String) : String := if value = "" then fallback else value

def emptyStore (boot : Boot) : Store where
  team := orDefault boot.team "team"
  service := orDefault boot.service "svc4"
  secret := orDefault boot.secret "rotate-secret"
  flags := Dict.empty
  nodes := Dict.empty
  blobToId := Dict.empty
  jobs := Dict.empty

def bootFlag (boot : Boot) : String := orDefault boot.boot "FLAG\x7bBOOT_NANOFLEET\x7d"

def publicDrone : Node := ⟨"public-drone", "public-blob", 0, "public", "nominal"⟩

def new (boot : Boot) (disk : Option Json.Bytes) : State :=
  let loaded : State := ⟨load (emptyStore boot) disk, disk⟩
  let first := (putFlag sha loaded 0 0 (bootFlag boot)).1
  let second := (putFlag sha first 0 1 (bootFlag boot ++ "_MANIFEST")).1
  let third := (putFlag sha second 0 2 (bootFlag boot ++ "_DIAGNOSTIC")).1
  persist (addNode third.store publicDrone)

inductive Input where
  | putFlag (tick payload : Int64) (flag : String)
  | putNoise (tick payload : Int64)
  | havoc (tick payload : Int64)
  | registerNode (label : String)
  | schedule (nodeId template : String)
  | restart (boot : Boot)

def step (state : State) : Input → State
  | .putFlag tick payload flag => (putFlag sha state tick payload flag).1
  | .putNoise tick payload => putNoise sha state tick payload
  | .havoc tick payload => (havoc sha state tick payload).1
  | .registerNode label => (registerNode sha state label).1
  | .schedule nodeId template => (schedule sha state nodeId template).1
  | .restart boot => new sha boot state.disk

/-- The first start finds an empty data directory. -/
def run (boot : Boot) (inputs : List Input) : State := inputs.foldl (step sha) (new sha boot none)

end Hash

/-! What is written to state.json is loaded again. -/

theorem sorted_get {α : Type} (dict : Dict String α) (name : String) :
    (Dict.ofList (sorted dict)).get? name = dict.get? name := by
  have inside (value : α) : (name, value) ∈ sorted dict ↔ dict.get? name = some value :=
    (List.mem_insertionSort _).trans (Dict.mem_entries_iff dict name value)
  cases found : dict.get? name with
  | some value =>
      refine Dict.of_list_exact _ _ _ ((inside value).mpr found) fun other also => ?_
      rw [inside, found] at also
      exact (Option.some.inj also).symm
  | none =>
      rw [Option.eq_none_iff_forall_ne_some]
      intro value stored
      have present := (inside value).mp (Dict.of_list_some _ _ _ stored)
      rw [found] at present
      cases present

theorem members_back {α : Type} (text : α → Json) (back : Json → Option α)
    (same : ∀ value, back (text value) = some value) (entries : List (String × α)) :
    ((entries.map fun entry => (entry.1, text entry.2)).mapM fun member =>
      (back member.2).map fun found => (member.1, found)) = some entries := by
  induction entries with
  | nil => rfl
  | cons entry rest ih =>
      rw [List.map_cons, List.mapM_cons, ih, same]
      rfl

theorem map_back {α : Type} (text : α → Json) (back : Json → Option α)
    (same : ∀ value, back (text value) = some value) (dict : Dict String α) :
    mapOf back (.object (mapMembers text dict)) = some (some (Dict.ofList (sorted dict))) := by
  rw [mapOf, mapMembers, members_back text back same]
  rfl

theorem node_back (node : Node) : nodeOf (nodeJson node) = some node := by
  have payload : intOf (.number (Json.intNumber node.payload.toInt)) = some node.payload :=
    Json.int64_of_number node.payload
  obtain ⟨id, blob, number, kind, data⟩ := node
  by_cases empty : data = ""
  · subst empty
    simp only [nodeJson, if_true, List.append_nil, nodeOf, membersOf]
    simp [field, stringOf, payload]
  · simp only [nodeJson, if_neg empty, nodeOf, membersOf]
    simp [field, stringOf, payload]

theorem job_back (job : Job) : jobOf (jobJson job) = some job := by
  simp [jobJson, jobOf, membersOf, field, stringOf]

theorem unmarshal_marshal (store : Store) : unmarshal (marshal store) = some
    ⟨some (Dict.ofList (sorted store.flags)), some (Dict.ofList (sorted store.nodes)),
      some (Dict.ofList (sorted store.blobToId)), some (Dict.ofList (sorted store.jobs))⟩ := by
  have flags := map_back .string stringOf (fun _ => rfl) store.flags
  have nodes := map_back nodeJson nodeOf node_back store.nodes
  have blobs := map_back .string stringOf (fun _ => rfl) store.blobToId
  have jobs := map_back jobJson jobOf job_back store.jobs
  simp [unmarshal, marshal, Json.parse_encode, membersOf, diskMembers, field, flags, nodes, blobs, jobs]

/-- The maps of two stores have the same lookups. -/
structure SameMaps (one other : Store) : Prop where
  flags : ∀ name, one.flags.get? name = other.flags.get? name
  nodes : ∀ id, one.nodes.get? id = other.nodes.get? id
  blobToId : ∀ blob, one.blobToId.get? blob = other.blobToId.get? blob
  jobs : ∀ id, one.jobs.get? id = other.jobs.get? id

theorem load_marshal (base store : Store) : SameMaps (load base (some (marshal store))) store := by
  have snap : (some (marshal store)).bind unmarshal = _ := unmarshal_marshal store
  rw [load, snap]
  exact ⟨sorted_get store.flags, sorted_get store.nodes, sorted_get store.blobToId, sorted_get store.jobs⟩

theorem load_team (store : Store) (disk : Option Json.Bytes) : (load store disk).team = store.team := by
  rw [load]
  cases disk.bind unmarshal <;> rfl

/-- A front of state.json is not loaded. -/
theorem load_cut (base store : Store) {front rest : Json.Bytes}
    (cut : front ++ rest = marshal store) (short : rest ≠ []) :
    load base (some front) = base := by
  have nothing : (some front).bind unmarshal = none := by
    show unmarshal front = none
    rw [unmarshal, Json.parse_cut _ cut short]
    rfl
  rw [load, nothing]

end KosSim.NanoFleet
