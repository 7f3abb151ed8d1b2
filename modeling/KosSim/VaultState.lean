import KosSim.VaultAccounts
import KosSim.VaultCodec
import Mathlib.Data.List.Sort

/-!
state.cpp: the objects and the flag index of VaultGrid. An object stands in three maps and in a row
of the database, from which a restart fills the maps again. The checker asks for a flag by the flag
index and finds it in the maps.
-/

namespace KosSim.VaultState
open Library Library.Json VaultCodec VaultDb
open VaultJson (jsonString jsonInt needleOf)
open VaultAccounts (notNull auditRecord)

/-! The source. -/

structure VaultObject where
  id : Bytes
  metaId : Bytes
  leaseId : Bytes
  shards : List Bytes
  body : Bytes
  payload : Int
  publicObject : Bool
  deriving DecidableEq

/-- What objects[key] puts where nothing was. -/
def VaultObject.blank : VaultObject := ⟨[], [], [], [], [], 0, false⟩

/-- A row of the table objects, under its id. -/
structure ObjectRow where
  metaId : Bytes
  leaseId : Bytes
  payload : Int
  publicObject : Bool
  body : Bytes
  shard0 : Bytes
  shard1 : Bytes
  shard2 : Bytes
  tick : Int
  deriving DecidableEq

/-- A row of flag_index, under tick and variant. -/
structure FlagRow where
  flag : Bytes
  ref : Bytes
  deriving DecidableEq

structure Disk where
  objects : Dict Bytes ObjectRow
  flagIndex : Dict (Int × Int) FlagRow

structure State where
  objects : Dict Bytes VaultObject
  leaseToObject : Dict Bytes Bytes
  metaToObject : Dict Bytes Bytes
  disk : Disk

/-- TEAM_NAME and SERVICE_NAME. -/
structure Env where
  team : Bytes
  service : Bytes

def Disk.empty : Disk := ⟨Dict.empty, Dict.empty⟩

def State.remember (state : State) (obj : VaultObject) : State :=
  { state with
    objects := state.objects.set obj.id obj
    leaseToObject := state.leaseToObject.set obj.leaseId obj.id
    metaToObject := state.metaToObject.set obj.metaId obj.id }

def rowObject (id : Bytes) (row : ObjectRow) : VaultObject :=
  ⟨id, row.metaId, row.leaseId, [row.shard0, row.shard1, row.shard2], row.body, row.payload,
    row.publicObject⟩

def init (disk : Disk) : State :=
  (disk.objects.entries.map fun entry => rowObject entry.1 entry.2).foldl State.remember
    ⟨Dict.empty, Dict.empty, Dict.empty, disk⟩

/-- An id has sixteen digits, so it is never NULL. -/
def persistObject (disk : Disk) (obj : VaultObject) (tick : Int) : Except Bytes Disk := do
  let metaId ← notNull (utf8 "objects.meta_id") obj.metaId
  let leaseId ← notNull (utf8 "objects.lease_id") obj.leaseId
  let body ← notNull (utf8 "objects.body") obj.body
  let shard0 ← notNull (utf8 "objects.shard0") (obj.shards.getD 0 [])
  let shard1 ← notNull (utf8 "objects.shard1") (obj.shards.getD 1 [])
  let shard2 ← notNull (utf8 "objects.shard2") (obj.shards.getD 2 [])
  let row : ObjectRow :=
    ⟨metaId, leaseId, obj.payload, obj.publicObject, body, shard0, shard1, shard2, tick⟩
  return { disk with objects := insertOrReplace disk.objects ((bindText obj.id).getD []) row }

def indexFlag (disk : Disk) (tick variant : Int) (flag ref : Bytes) : Except Bytes Disk := do
  let flag ← notNull (utf8 "flag_index.flag") flag
  let ref ← notNull (utf8 "flag_index.ref") ref
  return { disk with flagIndex := insertOrReplace disk.flagIndex (tick, variant) ⟨flag, ref⟩ }

def lookupFlagReference (disk : Disk) (tick variant : Int) : Option Bytes :=
  (disk.flagIndex.get? (tick, variant)).map FlagRow.ref

def readFlagIndex (disk : Disk) (tick variant : Int) : Bytes :=
  match disk.flagIndex.get? (tick, variant) with
  | none => []
  | some row => row.flag

/-- The maps are written before the row, and keep the object where the row fails. -/
def record (state : State) (obj : VaultObject) (tick : Int) : Except Bytes Unit × State :=
  match persistObject state.disk obj tick with
  | .error text => (.error text, state.remember obj)
  | .ok disk => (.ok (), { state.remember obj with disk := disk })

/-- index_flag, and then the info of the caller. -/
def index (state : State) (tick variant : Int) (flag ref info : Bytes) : Except Bytes Bytes × State :=
  match indexFlag state.disk tick variant flag ref with
  | .error text => (.error text, state)
  | .ok disk => (.ok info, { state with disk := disk })

/-- An object as the streams write it: names in quotes, values as they are. -/
def rawObject (members : List (Bytes × Bytes)) : Bytes :=
  openBrace :: ([comma].intercalate (members.map fun member => needleOf member.1 ++
    colon :: member.2) ++ [closeBrace])

def quoted (value : Bytes) : Bytes := needleOf value

def flagText (env : Env) (tick : Int) (flag : Bytes) : Bytes :=
  env.team ++ utf8 ":vault:" ++ intText tick ++ utf8 ":0:" ++ flag

def noiseText (env : Env) (tick : Int) : Bytes := env.team ++ utf8 ":noise:" ++ intText tick ++ utf8 ":0"

/-- The object that put_flag and put_noise make of an id and a body. -/
def shardedObject (id body : Bytes) (publicObject : Bool) : VaultObject :=
  ⟨id, shortHash (utf8 "meta:" ++ id), shortHash (utf8 "lease:" ++ id), splitSecret body id, body, 0,
    publicObject⟩

def flagObject (env : Env) (tick : Int) (flag : Bytes) : VaultObject :=
  shardedObject (shortHash (flagText env tick flag)) flag false

def noiseObject (env : Env) (tick : Int) : VaultObject :=
  shardedObject (shortHash (noiseText env tick))
    (utf8 "sample:" ++ env.service ++ utf8 ":" ++ intText tick ++ utf8 ":0") true

def putFlagVault (env : Env) (state : State) (tick : Int) (flag : Bytes) : Except Bytes Bytes × State :=
  let obj := flagObject env tick flag
  match record state obj tick with
  | (.error text, state) => (.error text, state)
  | (.ok (), state) =>
      index state tick 0 flag
        (rawObject [(utf8 "object_id", quoted obj.id), (utf8 "lease_id", quoted obj.leaseId),
          (utf8 "meta_id", quoted obj.metaId)])
        (rawObject [(utf8 "a", quoted obj.id), (utf8 "b", quoted obj.leaseId),
          (utf8 "c", quoted obj.metaId), (utf8 "p", utf8 "0"), (utf8 "t", intText tick)])

/-- Status and body of a sidecar's answer; status 0 where there is none. -/
structure Answer where
  status : Int
  body : Bytes
  deriving DecidableEq

/-- The sidecar's answer to the request with the plaintext is a parameter, like the sixteen digits drawn. -/
def putFlagManifest (state : State) (tick : Int) (flag drawn : Bytes) (resp : Answer) :
    Except Bytes Bytes × State :=
  let manifestId := utf8 "mf_" ++ drawn
  if resp.status ≠ 200 then (.ok (rawObject [(utf8 "error", utf8 "\"crypt_unavailable\"")]), state)
  else
    let ivHex := jsonString resp.body (utf8 "iv")
    let ctHex := jsonString resp.body (utf8 "ciphertext")
    index state tick 1 flag
      (rawObject [(utf8 "manifest", quoted manifestId), (utf8 "tenant", quoted (utf8 "checker")),
        (utf8 "iv", quoted ivHex), (utf8 "ciphertext", quoted ctHex)])
      (rawObject [(utf8 "a", quoted manifestId), (utf8 "b", quoted (utf8 "checker")),
        (utf8 "iv", quoted ivHex), (utf8 "ciphertext", quoted ctHex), (utf8 "p", utf8 "1"),
        (utf8 "t", intText tick)])

def putFlagFeed (state : State) (tick : Int) (flag drawn : Bytes) (resp : Answer) :
    Except Bytes Bytes × State :=
  let recordId := utf8 "rec_" ++ drawn
  if resp.status ≠ 200 then (.ok (rawObject [(utf8 "error", utf8 "\"feed_unavailable\"")]), state)
  else
    let offset := intText (jsonInt resp.body (utf8 "offset") 0)
    index state tick 2 flag
      (rawObject [(utf8 "record", quoted recordId), (utf8 "tenant", quoted (utf8 "checker")),
        (utf8 "offset", offset)])
      (rawObject [(utf8 "a", quoted recordId), (utf8 "b", quoted (utf8 "checker")), (utf8 "offset", offset),
        (utf8 "length", digitBytes flag.length), (utf8 "p", utf8 "2"), (utf8 "t", intText tick)])

def putFlag (env : Env) (state : State) (tick payload : Int) (flag drawn : Bytes) (resp : Answer) :
    Except Bytes Bytes × State :=
  if payload = 1 then putFlagManifest state tick flag drawn resp
  else if payload = 2 then putFlagFeed state tick flag drawn resp
  else putFlagVault env state tick flag

def inKeyOrder (objects : Dict Bytes VaultObject) : List VaultObject :=
  (objects.entries.insertionSort fun one other => one.1 ≤ other.1).map Prod.snd

/-- none where xor_shards throws. -/
def scan (expected : Bytes) : List VaultObject → Option Bool
  | [] => some false
  | obj :: rest =>
      if obj.body ≠ expected then scan expected rest
      else
        match xorShards obj.shards with
        | none => none
        | some secret => if secret = expected then some true else scan expected rest

/-- status: what the sidecar answers for the manifest or the record. -/
def getFlag (state : State) (tick payload : Int) (expected : Bytes) (status : Int) : Option Bool :=
  if readFlagIndex state.disk tick payload ≠ expected then some false
  else if payload = 0 then scan expected (inKeyOrder state.objects)
  else if payload = 1 then
    match lookupFlagReference state.disk tick 1 with
    | none => some false
    | some ref => some (jsonString ref (utf8 "manifest") ≠ [] && decide (status = 200))
  else if payload = 2 then
    match lookupFlagReference state.disk tick 2 with
    | none => some false
    | some ref => some (jsonString ref (utf8 "record") ≠ [] && decide (status = 200))
  else some false

/-- The noise of payload 1 and 2 goes to the sidecars. -/
def putNoise (env : Env) (state : State) (tick payload : Int) : Except Bytes Unit × State :=
  if payload = 0 then record state (noiseObject env tick) tick else (.ok (), state)

def havoc (state : State) (tick payload : Int) : Except Bytes Bool := do
  auditRecord (utf8 "checker") (utf8 "havoc") (utf8 "tick:" ++ intText tick ++ utf8 ":v" ++ intText payload)
  return !state.objects.entries.isEmpty

/-- GET /api/meta/…: the object is looked up by objects[id]. -/
def readMeta (state : State) (metaId : Bytes) : State :=
  match state.metaToObject.get? metaId with
  | none => state
  | some id =>
      if state.objects.contains id then state else { state with objects := state.objects.set id .blank }

/-! Runs. -/

/-- request: any other request, which reads objects and flag_index at most. -/
inductive Call where
  | putFlag (tick payload : Int) (flag drawn : Bytes) (resp : Answer)
  | putNoise (tick payload : Int)
  | havoc (tick payload : Int)
  | readMeta (metaId : Bytes)
  | request
  | restart

def step (env : Env) (state : State) : Call → State
  | .putFlag tick payload flag drawn resp => (putFlag env state tick payload flag drawn resp).2
  | .putNoise tick payload => (putNoise env state tick payload).2
  | .havoc _ _ => state
  | .readMeta metaId => readMeta state metaId
  | .request => state
  | .restart => init state.disk

def run (env : Env) (state : State) (calls : List Call) : State := calls.foldl (step env) state

/-- The texts whose hashes are the ids of objects. -/
def Call.idTexts (env : Env) : Call → List Bytes
  | .putFlag tick payload flag _ _ => if payload = 1 ∨ payload = 2 then [] else [flagText env tick flag]
  | .putNoise tick payload => if payload = 0 then [noiseText env tick] else []
  | _ => []

def Call.objects (env : Env) : Call → List VaultObject
  | .putFlag tick payload flag _ _ => if payload = 1 ∨ payload = 2 then [] else [flagObject env tick flag]
  | .putNoise tick payload => if payload = 0 then [noiseObject env tick] else []
  | _ => []

/-- Of the flag index, what the call may write. -/
def Call.indexes : Call → List (Int × Int)
  | .putFlag tick payload _ _ _ => if payload = 1 ∨ payload = 2 then [(tick, payload)] else [(tick, 0)]
  | _ => []

/-- A put_flag is for another pair, with payload 0, 1 or 2. -/
def Call.ForOthers (tick : Int) : Call → Prop
  | .putFlag other payload _ _ _ => (payload = 0 ∨ payload = 1 ∨ payload = 2) ∧ (other, payload) ≠ (tick, 0)
  | _ => True

instance (tick : Int) : DecidablePred (Call.ForOthers tick) := fun call =>
  match call with
  | .putFlag other payload _ _ _ =>
      inferInstanceAs (Decidable ((payload = 0 ∨ payload = 1 ∨ payload = 2) ∧ (other, payload) ≠ (tick, 0)))
  | .putNoise _ _ | .havoc _ _ | .readMeta _ | .request | .restart => isTrue trivial

def NoCollision (texts : List Bytes) : Prop :=
  ∀ one ∈ texts, ∀ other ∈ texts, shortHash one = shortHash other → one = other

/-! What a call can do. -/

/-- The single changes a call is made of. Nothing else touches the maps and the two tables. -/
inductive Change (env : Env) (call : Call) (before : State) : State → Prop where
  | remember (obj : VaultObject) (made : obj ∈ call.objects env) :
      Change env call before (before.remember obj)
  | persist (obj : VaultObject) (tick : Int) (disk : Disk) (made : obj ∈ call.objects env)
      (written : persistObject before.disk obj tick = .ok disk) : Change env call before { before with
        disk := disk }
  | index (tick variant : Int) (flag ref : Bytes) (disk : Disk) (made : (tick, variant) ∈ call.indexes)
      (written : indexFlag before.disk tick variant flag ref = .ok disk) :
      Change env call before { before with disk := disk }
  | blank (id : Bytes) (absent : before.objects.get? id = none) :
      Change env call before { before with objects := before.objects.set id .blank }
  | reload : Change env call before (init before.disk)

def Changes (env : Env) (call : Call) : State → State → Prop := Relation.ReflTransGen (Change env call)

theorem record_changes {env : Env} {call : Call} {obj : VaultObject} (made : obj ∈ call.objects env)
    (state : State) (tick : Int) : Changes env call state (record state obj tick).2 := by
  have remembered : Changes env call state (state.remember obj) := .single (.remember obj made)
  unfold record
  cases written : persistObject state.disk obj tick with
  | error text => exact remembered
  | ok disk => exact remembered.tail (.persist obj tick disk made written)

theorem index_changes {env : Env} {call : Call} {tick variant : Int}
    (made : (tick, variant) ∈ call.indexes) (state : State) (flag ref info : Bytes) :
    Changes env call state (index state tick variant flag ref info).2 := by
  unfold index
  cases written : indexFlag state.disk tick variant flag ref with
  | error text => exact .refl
  | ok disk => exact .single (.index tick variant flag ref disk made written)

theorem put_vault_changes {env : Env} {call : Call} {tick : Int} {flag : Bytes}
    (made : flagObject env tick flag ∈ call.objects env) (indexed : (tick, 0) ∈ call.indexes)
    (state : State) :
    Changes env call state (putFlagVault env state tick flag).2 := by
  have recorded := record_changes made state tick
  unfold putFlagVault
  dsimp only
  generalize record state (flagObject env tick flag) tick = result at recorded
  match result with
  | (.error text, next) => exact recorded
  | (.ok (), next) => exact recorded.trans (index_changes indexed next _ _ _)

theorem step_changes (env : Env) (state : State) (call : Call) :
    Changes env call state (step env state call) := by
  cases call with
  | putFlag tick payload flag drawn resp =>
      show Changes env _ state (putFlag env state tick payload flag drawn resp).2
      unfold putFlag
      by_cases one : payload = 1
      · have indexed : (tick, (1 : Int)) ∈ (Call.putFlag tick payload flag drawn resp).indexes := by
          simp [Call.indexes, one]
        rw [if_pos one, putFlagManifest]
        split
        · exact .refl
        · exact index_changes indexed state _ _ _
      by_cases two : payload = 2
      · have indexed : (tick, (2 : Int)) ∈ (Call.putFlag tick payload flag drawn resp).indexes := by
          simp [Call.indexes, two]
        rw [if_neg one, if_pos two, putFlagFeed]
        split
        · exact .refl
        · exact index_changes indexed state _ _ _
      rw [if_neg one, if_neg two]
      exact put_vault_changes (by simp [Call.objects, one, two]) (by simp [Call.indexes, one, two]) state
  | putNoise tick payload =>
      show Changes env _ state (putNoise env state tick payload).2
      unfold putNoise
      split
      · next zero => exact record_changes (by simp [Call.objects, zero]) state tick
      · exact .refl
  | havoc tick payload => exact .refl
  | readMeta metaId =>
      show Changes env _ state (readMeta state metaId)
      unfold readMeta
      split
      · exact .refl
      · next id _ =>
        split
        · exact .refl
        · next absent =>
          have missing : state.objects.get? id = none := by
            rwa [Dict.contains, Option.isSome_iff_ne_none, ne_eq, not_not] at absent
          exact .single (.blank id missing)
  | request => exact .refl
  | restart => exact .single .reload

/-- What every single change of the calls keeps, a run keeps. -/
theorem run_keeps {env : Env} {holds : State → Prop} {calls : List Call}
    (kept : ∀ call ∈ calls, ∀ before after, Change env call before after → holds before → holds after)
    {state : State} (start : holds state) : holds (run env state calls) := by
  refine List.foldlRecOn calls (step env) start fun before held call member => ?_
  have chain := step_changes env before call
  generalize step env before call = after at chain ⊢
  induction chain with
  | refl => exact held
  | tail _ change ih => exact kept call member _ _ change ih

/-! Rows. -/

/-- The row that SQLite makes of an object's texts. -/
structure Bound (obj : VaultObject) (row : ObjectRow) : Prop where
  metaId : bindText obj.metaId = some row.metaId
  leaseId : bindText obj.leaseId = some row.leaseId
  body : bindText obj.body = some row.body
  shard0 : bindText (obj.shards.getD 0 []) = some row.shard0
  shard1 : bindText (obj.shards.getD 1 []) = some row.shard1
  shard2 : bindText (obj.shards.getD 2 []) = some row.shard2
  payload : row.payload = obj.payload
  publicObject : row.publicObject = obj.publicObject

theorem not_null_bind {α : Type} {column value : Bytes} {next : Bytes → Except Bytes α} {result : α}
    (ok : (notNull column value >>= next) = .ok result) :
    ∃ text, bindText value = some text ∧ next text = .ok result := by
  unfold notNull at ok
  cases bound : bindText value with
  | none => rw [bound] at ok; cases ok
  | some text => rw [bound] at ok; exact ⟨text, rfl, ok⟩

theorem not_null_some {column value text : Bytes} (bound : bindText value = some text) :
    notNull column value = .ok text := by
  rw [notNull, bound]

theorem persist_ok {disk written : Disk} {obj : VaultObject} {tick : Int}
    (ok : persistObject disk obj tick = .ok written) :
    ∃ row, Bound obj row ∧
      written = { disk with objects := insertOrReplace disk.objects ((bindText obj.id).getD []) row } := by
  unfold persistObject at ok
  obtain ⟨metaId, boundMeta, ok⟩ := not_null_bind ok
  obtain ⟨leaseId, boundLease, ok⟩ := not_null_bind ok
  obtain ⟨body, boundBody, ok⟩ := not_null_bind ok
  obtain ⟨shard0, bound0, ok⟩ := not_null_bind ok
  obtain ⟨shard1, bound1, ok⟩ := not_null_bind ok
  obtain ⟨shard2, bound2, ok⟩ := not_null_bind ok
  exact ⟨_, ⟨boundMeta, boundLease, boundBody, bound0, bound1, bound2, rfl, rfl⟩, (Except.ok.inj ok).symm⟩

theorem persist_bound (disk : Disk) {obj : VaultObject} {row : ObjectRow} (bound : Bound obj row) :
    ∃ written, persistObject disk obj row.tick = .ok written := by
  unfold persistObject
  rw [not_null_some bound.metaId, not_null_some bound.leaseId, not_null_some bound.body,
    not_null_some bound.shard0, not_null_some bound.shard1, not_null_some bound.shard2]
  exact ⟨_, rfl⟩

theorem index_ok {disk written : Disk} {tick variant : Int} {flag ref : Bytes}
    (ok : indexFlag disk tick variant flag ref = .ok written) :
    ∃ row : FlagRow, bindText flag = some row.flag ∧
      written = { disk with flagIndex := insertOrReplace disk.flagIndex (tick, variant) row } := by
  unfold indexFlag at ok
  obtain ⟨flag, boundFlag, ok⟩ := not_null_bind ok
  obtain ⟨ref, -, ok⟩ := not_null_bind ok
  exact ⟨⟨flag, ref⟩, boundFlag, (Except.ok.inj ok).symm⟩

theorem made_id {env : Env} {call : Call} {obj : VaultObject} (made : obj ∈ call.objects env) :
    ∃ text ∈ call.idTexts env, obj.id = shortHash text := by
  unfold Call.objects at made
  unfold Call.idTexts
  split at made
  · split at made
    · cases made
    · next other =>
      rw [if_neg other, List.mem_singleton.mp made]
      exact ⟨_, List.mem_singleton_self _, rfl⟩
  · split at made
    · next zero =>
      rw [if_pos zero, List.mem_singleton.mp made]
      exact ⟨_, List.mem_singleton_self _, rfl⟩
    · cases made
  · cases made

theorem made_shards {env : Env} {call : Call} {obj : VaultObject} (made : obj ∈ call.objects env) :
    obj.shards = splitSecret obj.body obj.id := by
  unfold Call.objects at made
  split at made
  · split at made
    · cases made
    · rw [List.mem_singleton.mp made]
      rfl
  · split at made
    · rw [List.mem_singleton.mp made]
      rfl
    · cases made
  · cases made

theorem made_bound {env : Env} {call : Call} {obj : VaultObject} (made : obj ∈ call.objects env) :
    bindText obj.id = some obj.id := by
  obtain ⟨text, -, same⟩ := made_id made
  refine bind_short ?_
  rw [same, short_hash_length]
  decide

/-! The reload. -/

theorem remember_objects (objs : List VaultObject) (state : State) :
    (objs.foldl State.remember state).objects =
      Dict.setAll (objs.map fun obj => (obj.id, obj)) state.objects ∧
      (objs.foldl State.remember state).disk = state.disk := by
  induction objs generalizing state with
  | nil => exact ⟨rfl, rfl⟩
  | cons obj rest ih => exact ih (state.remember obj)

theorem init_disk (disk : Disk) : (init disk).disk = disk := (remember_objects _ _).2

/-- A restart finds the objects of the rows, each under the id of its row. -/
theorem init_objects (disk : Disk) (id : Bytes) (obj : VaultObject) :
    (init disk).objects.get? id = some obj ↔ ∃ row, disk.objects.get? id = some row ∧
      rowObject id row = obj := by
  have objects : (init disk).objects =
      Dict.ofList ((disk.objects.entries.map fun entry => rowObject entry.1 entry.2).map fun obj =>
        (obj.id, obj)) :=
    (remember_objects _ _).1
  have entry (other : VaultObject) :
      (id, other) ∈ (disk.objects.entries.map fun entry => rowObject entry.1 entry.2).map
        (fun obj => (obj.id, obj)) ↔
        ∃ row, disk.objects.get? id = some row ∧ rowObject id row = other := by
    rw [List.map_map, List.mem_map]
    constructor
    · rintro ⟨⟨key, row⟩, member, same⟩
      obtain ⟨here, made⟩ := Prod.mk.inj same
      have here : key = id := here
      subst here
      exact ⟨row, (Dict.mem_entries_iff _ _ _).mp member, made⟩
    · rintro ⟨row, found, made⟩
      exact ⟨(id, row), (Dict.mem_entries_iff _ _ _).mpr found, Prod.ext rfl made⟩
  rw [objects]
  constructor
  · exact fun found => (entry obj).mp (Dict.of_list_some _ _ _ found)
  · intro stored
    refine Dict.of_list_exact _ _ _ ((entry obj).mpr stored) fun other member => ?_
    obtain ⟨row, found, made⟩ := stored
    obtain ⟨again, foundAgain, madeAgain⟩ := (entry other).mp member
    rw [found] at foundAgain
    rw [← made, ← madeAgain, Option.some.inj foundAgain]

/-! The invariants. -/

/-- xor_shards throws for no object, now or after a restart. -/
structure Sound (state : State) : Prop where
  objects : ∀ id obj, state.objects.get? id = some obj → ∀ shard ∈ obj.shards, IsHex shard
  rows : ∀ id row, state.disk.objects.get? id = some row → ∀ shard ∈ (rowObject id row).shards, IsHex shard

/-- The object is in the map, and its row gives it back. -/
structure Held (obj : VaultObject) (state : State) : Prop where
  object : state.objects.get? obj.id = some obj
  row : ∃ row, state.disk.objects.get? obj.id = some row ∧ rowObject obj.id row = obj

def Indexed (tick : Int) (text : Bytes) (state : State) : Prop :=
  ∃ row, state.disk.flagIndex.get? (tick, 0) = some row ∧ row.flag = text

theorem bound_hex {obj : VaultObject} {row : ObjectRow} (bound : Bound obj row)
    (hex : ∀ shard ∈ obj.shards, IsHex shard) (id : Bytes) :
    ∀ shard ∈ (rowObject id row).shards, IsHex shard := by
  have column {i : Nat} {text : Bytes} (stored : bindText (obj.shards.getD i []) = some text) :
      IsHex text := by
    intro c member
    have inside := (bind_some stored).2 c member
    rw [List.getD_eq_getElem?_getD] at inside
    by_cases below : i < obj.shards.length
    · rw [List.getElem?_eq_getElem below] at inside
      exact hex _ (List.getElem_mem below) c inside
    · rw [List.getElem?_eq_none (Nat.le_of_not_lt below)] at inside
      cases inside
  intro shard member
  simp only [rowObject, List.mem_cons, List.not_mem_nil, or_false] at member
  rcases member with rfl | rfl | rfl
  · exact column bound.shard0
  · exact column bound.shard1
  · exact column bound.shard2

theorem sound_init {disk : Disk} (rows : ∀ id row, disk.objects.get? id = some row →
    ∀ shard ∈ (rowObject id row).shards, IsHex shard) : Sound (init disk) := by
  constructor
  · intro id obj found
    obtain ⟨row, stored, made⟩ := (init_objects disk id obj).mp found
    rw [← made]
    exact rows id row stored
  · rw [init_disk]
    exact rows

theorem sound_empty : Sound (init Disk.empty) := sound_init fun _ _ found => nomatch found

theorem sound_kept {env : Env} {call : Call} {before after : State} (change : Change env call before after)
    (sound : Sound before) : Sound after := by
  cases change with
  | remember obj made =>
      refine ⟨fun id other found => ?_, sound.rows⟩
      rw [State.remember, Dict.get_set] at found
      split at found
      · intro shard member
        rw [← Option.some.inj found, made_shards made] at member
        exact (shard_hex member).1
      · exact sound.objects id other found
  | persist obj tick disk made written =>
      obtain ⟨row, bound, rfl⟩ := persist_ok written
      refine ⟨sound.objects, fun id other found => ?_⟩
      rw [get_insert_or_replace] at found
      split at found
      · rw [← Option.some.inj found]
        refine bound_hex bound (fun shard member => ?_) id
        rw [made_shards made] at member
        exact (shard_hex member).1
      · exact sound.rows id other found
  | index tick variant flag ref disk made written =>
      obtain ⟨row, -, rfl⟩ := index_ok written
      exact ⟨sound.objects, sound.rows⟩
  | blank id absent =>
      refine ⟨fun other obj found => ?_, sound.rows⟩
      rw [Dict.get_set] at found
      split at found
      · rw [← Option.some.inj found]
        exact fun shard member => (List.not_mem_nil member).elim
      · exact sound.objects other obj found
  | reload => exact sound_init sound.rows

theorem held_kept {env : Env} {call : Call} {obj : VaultObject}
    (apart : ∀ other ∈ call.objects env, other.id ≠ obj.id) {before after : State}
    (change : Change env call before after) (held : Held obj before) : Held obj after := by
  cases change with
  | remember other made =>
      refine ⟨?_, held.row⟩
      rw [State.remember, Dict.get_set_other _ _ _ _ (apart other made)]
      exact held.object
  | persist other tick disk made written =>
      obtain ⟨row, -, rfl⟩ := persist_ok written
      refine ⟨held.object, ?_⟩
      rw [get_insert_or_replace, made_bound made, Option.getD_some, if_neg (apart other made)]
      exact held.row
  | index tick variant flag ref disk made written =>
      obtain ⟨row, -, rfl⟩ := index_ok written
      exact ⟨held.object, held.row⟩
  | blank id absent =>
      have other : id ≠ obj.id := by
        rintro rfl
        rw [held.object] at absent
        cases absent
      refine ⟨?_, held.row⟩
      rw [Dict.get_set_other _ _ _ _ other]
      exact held.object
  | reload =>
      refine ⟨(init_objects _ _ _).mpr held.row, ?_⟩
      rw [init_disk]
      exact held.row

theorem indexed_kept {env : Env} {call : Call} {tick : Int} {text : Bytes}
    (apart : (tick, (0 : Int)) ∉ call.indexes) {before after : State}
    (change : Change env call before after) (indexed : Indexed tick text before) :
    Indexed tick text after := by
  cases change with
  | remember obj made => exact indexed
  | persist obj _ disk made written =>
      obtain ⟨row, -, rfl⟩ := persist_ok written
      exact indexed
  | index other variant flag ref disk made written =>
      obtain ⟨row, -, rfl⟩ := index_ok written
      have elsewhere : (other, variant) ≠ (tick, 0) := fun same => apart (same ▸ made)
      unfold Indexed
      rw [get_insert_or_replace, if_neg elsewhere]
      exact indexed
  | blank id absent => exact indexed
  | reload =>
      unfold Indexed
      rw [init_disk]
      exact indexed

/-! The ids of later objects. -/

theorem int_text_no_colon (n : Int) : colon ∉ intText n := by
  have digits (m : Nat) : colon ∉ digitBytes m := fun member => by
    cases (digit_bytes m).2.1 colon member
  unfold intText
  split
  · exact fun member => (List.mem_cons.mp member).elim (fun same => by cases same) (digits _)
  · exact digits _

theorem int_text_inj {one other : Int} (same : intText one = intText other) : one = other := by
  have value := congrArg intOf same
  rw [int_of_text, int_of_text] at value
  exact Option.some.inj value

theorem flag_text_tick {env : Env} {one other : Int} {flag text : Bytes}
    (same : flagText env one flag = flagText env other text) : one = other := by
  unfold flagText at same
  simp only [List.append_assoc] at same
  have behind : intText one ++ colon :: (utf8 "0:" ++ flag) = intText other ++
      colon :: (utf8 "0:" ++ text) :=
    List.append_cancel_left (List.append_cancel_left same)
  have front (n : Int) (more : Bytes) :
      (intText n ++ colon :: more).takeWhile (fun c => decide (c ≠ colon)) = intText n := by
    have free (c : UInt8) (member : c ∈ intText n) : decide (c ≠ colon) = true :=
      decide_eq_true fun mark => int_text_no_colon n (mark ▸ member)
    rw [List.takeWhile_append_of_pos free, List.takeWhile_cons_of_neg (by simp), List.append_nil]
  refine int_text_inj ?_
  rw [← front one, behind, front other]

theorem flag_text_noise (env : Env) (one other : Int) (flag : Bytes) :
    flagText env one flag ≠ noiseText env other := by
  intro same
  unfold flagText noiseText at same
  simp only [List.append_assoc] at same
  have behind := List.append_cancel_left same
  -- The letter behind the first colon.
  have letter := congrArg (fun text => text.getD 1 0) behind
  cases letter

theorem later_text {env : Env} {tick : Int} {call : Call} (others : call.ForOthers tick) {flag text : Bytes}
    (member : text ∈ call.idTexts env) : flagText env tick flag ≠ text := by
  cases call with
  | putFlag other payload body drawn resp =>
      simp only [Call.idTexts] at member
      split at member
      · cases member
      · next vault =>
        have zero : payload = 0 := by
          rcases others.1 with zero | one | two
          · exact zero
          · exact absurd (Or.inl one) vault
          · exact absurd (Or.inr two) vault
        rw [List.mem_singleton.mp member]
        intro same
        exact others.2 (by rw [zero, flag_text_tick same])
  | putNoise other payload =>
      simp only [Call.idTexts] at member
      split at member
      · rw [List.mem_singleton.mp member]
        exact flag_text_noise env tick other flag
      · cases member
  | _ => cases member

theorem later_index {tick : Int} {call : Call} (others : call.ForOthers tick) :
    (tick, (0 : Int)) ∉ call.indexes := by
  cases call with
  | putFlag other payload body drawn resp =>
      intro member
      simp only [Call.indexes] at member
      split at member
      · next sidecar =>
        have payload := (Prod.mk.inj (List.mem_singleton.mp member)).2
        omega
      · next vault =>
        obtain ⟨same, -⟩ := Prod.mk.inj (List.mem_singleton.mp member)
        obtain ⟨range, apart⟩ := others
        have zero : payload = 0 := by omega
        exact apart (by rw [same, zero])
  | _ => nofun

/-! The put. -/

theorem whole_column {value text : Bytes} (stored : bindText value = some text)
    (noNul : (0 : UInt8) ∉ value) (short : value.length < 2 ^ 32) : text = value :=
  (bind_whole_iff noNul stored).mpr short

/-- An object whose body was stored whole was stored whole. -/
theorem bound_whole {obj : VaultObject} {row : ObjectRow} (bound : Bound obj row)
    (made : ∃ id body shown, obj = shardedObject id body shown) (whole : row.body = obj.body) :
    rowObject obj.id row = obj := by
  obtain ⟨id, body, shown, rfl⟩ := made
  have size : body.length ≤ maxLength := by
    have stored := bound.body
    rw [whole] at stored
    exact (bind_some stored).1
  have hash {value text : Bytes} (stored : bindText (shortHash value) = some text) :
      text = shortHash value := by
    rw [bind_short (by rw [short_hash_length]; decide)] at stored
    exact (Option.some.inj stored).symm
  have shard {value text : Bytes} (stored : bindText value = some text)
      (member : value ∈ splitSecret body id) : text = value := by
    obtain ⟨hex, length⟩ := shard_hex member
    refine whole_column stored (hex_no_nul hex) ?_
    unfold maxLength at size
    omega
  have shards : [row.shard0, row.shard1, row.shard2] = splitSecret body id := by
    rw [shard bound.shard0 (by simp [shardedObject, splitSecret]),
      shard bound.shard1 (by simp [shardedObject, splitSecret]),
      shard bound.shard2 (by simp [shardedObject, splitSecret])]
    rfl
  unfold rowObject
  rw [shards, hash bound.metaId, hash bound.leaseId, whole, bound.payload, bound.publicObject]
  rfl

theorem put_vault_ok {env : Env} {state after : State} {tick : Int} {flag info : Bytes}
    (ok : putFlagVault env state tick flag = (.ok info, after)) :
    ∃ text, bindText flag = some text ∧ Indexed tick text after ∧
      (text = flag → Held (flagObject env tick flag) after) := by
  unfold putFlagVault record at ok
  dsimp only at ok
  cases written : persistObject state.disk (flagObject env tick flag) tick with
  | error text => rw [written] at ok; cases ok
  | ok disk =>
      rw [written] at ok
      dsimp only [index] at ok
      obtain ⟨row, bound, stored⟩ := persist_ok written
      generalize rawObject _ = ref at ok
      generalize rawObject _ = info at ok
      cases indexed : indexFlag disk tick 0 flag ref with
      | error text => rw [indexed] at ok; cases ok
      | ok last =>
          rw [indexed] at ok
          obtain ⟨entry, boundFlag, indexStored⟩ := index_ok indexed
          obtain ⟨-, rfl⟩ := Prod.mk.inj ok
          have id : bindText (flagObject env tick flag).id = some (flagObject env tick flag).id :=
            bind_short (by rw [flagObject, shardedObject, short_hash_length]; decide)
          refine ⟨entry.flag, boundFlag, ⟨entry, ?_, rfl⟩, fun whole => ⟨?_, row, ?_, ?_⟩⟩
          · rw [indexStored, get_insert_or_replace, if_pos rfl]
          · exact Dict.get_set_self _ _ _
          · show last.objects.get? _ = _
            rw [indexStored, stored, get_insert_or_replace, id, Option.getD_some, if_pos rfl]
          · refine bound_whole bound ⟨_, _, _, rfl⟩ ?_
            have same : bindText flag = some row.body := bound.body
            rw [boundFlag] at same
            rw [← Option.some.inj same, whole]
            rfl

theorem put_flag_zero (env : Env) (state : State) (tick : Int) (flag drawn : Bytes) (resp : Answer) :
    putFlag env state tick 0 flag drawn resp = putFlagVault env state tick flag := by
  unfold putFlag
  rw [if_neg (by decide), if_neg (by decide)]

/-- The writes succeed where the cut sizes are within SQLite's limit, so for every flag of up to
half of it. -/
theorem put_flag_stored {flag : Bytes} (flagSize : flag.length % 2 ^ 32 ≤ maxLength)
    (shardSize : 2 * flag.length % 2 ^ 32 ≤ maxLength) (env : Env) (state : State) (tick : Int)
    (drawn : Bytes) (resp : Answer) : (putFlag env state tick 0 flag drawn resp).1.isOk = true := by
  have shard {i : Nat} (inside : i < (splitSecret flag (flagObject env tick flag).id).length) :
      ∃ text, bindText ((splitSecret flag (flagObject env tick flag).id).getD i []) = some text := by
    rw [List.getD_eq_getElem?_getD, List.getElem?_eq_getElem inside, Option.getD_some]
    refine ⟨_, bind_cut ?_⟩
    rwa [(shard_hex (List.getElem_mem inside)).2]
  obtain ⟨shard0, bound0⟩ := shard (i := 0) (show 0 < 3 by decide)
  obtain ⟨shard1, bound1⟩ := shard (i := 1) (show 1 < 3 by decide)
  obtain ⟨shard2, bound2⟩ := shard (i := 2) (show 2 < 3 by decide)
  have hash (value : Bytes) : bindText (shortHash value) = some (shortHash value) :=
    bind_short (by rw [short_hash_length]; decide)
  have bound : Bound (flagObject env tick flag)
      ⟨(flagObject env tick flag).metaId, (flagObject env tick flag).leaseId, 0, false, _, shard0,
        shard1, shard2, tick⟩ :=
    ⟨hash _, hash _, bind_cut flagSize, bound0, bound1, bound2, rfl, rfl⟩
  obtain ⟨disk, written⟩ := persist_bound state.disk bound
  have ref : bindText (rawObject [(utf8 "object_id", quoted (flagObject env tick flag).id),
      (utf8 "lease_id", quoted (flagObject env tick flag).leaseId),
      (utf8 "meta_id", quoted (flagObject env tick flag).metaId)]) = some _ := bind_short (by
    simp only [rawObject, quoted, needleOf, flagObject, shardedObject, List.map_cons, List.map_nil,
      List.intercalate_cons_cons, List.intercalate_singleton, List.length_cons, List.length_append,
      List.length_nil, short_hash_length]
    decide)
  rw [put_flag_zero]
  unfold putFlagVault record
  dsimp only
  rw [written]
  dsimp only
  unfold index indexFlag
  rw [not_null_some (bind_cut flagSize), not_null_some ref]
  rfl

/-! The scan. -/

theorem scan_found {expected : Bytes} {objs : List VaultObject}
    (hex : ∀ obj ∈ objs, ∀ shard ∈ obj.shards, IsHex shard) {obj : VaultObject}
    (member : obj ∈ objs) (body : obj.body = expected)
    (secret : xorShards obj.shards = some expected) :
    scan expected objs = some true := by
  induction objs with
  | nil => cases member
  | cons first rest ih =>
      obtain ⟨value, total⟩ := xor_total (hex first List.mem_cons_self)
      have later (inside : obj ∈ rest) :=
        ih (fun other there => hex other (List.mem_cons_of_mem _ there)) inside
      rw [scan, total]
      dsimp only
      rcases List.mem_cons.mp member with rfl | inside
      · -- here, where the scan ends
        rw [secret] at total
        rw [if_neg (fun other => other body), if_pos (Option.some.inj total).symm]
      · rw [later inside]
        split
        · rfl
        · split <;> rfl

theorem in_key_order {objects : Dict Bytes VaultObject} {obj : VaultObject} :
    obj ∈ inKeyOrder objects ↔ ∃ id, objects.get? id = some obj := by
  unfold inKeyOrder
  rw [List.mem_map]
  constructor
  · rintro ⟨⟨id, other⟩, member, rfl⟩
    exact ⟨id, (Dict.mem_entries_iff _ _ _).mp ((List.mem_insertionSort _).mp member)⟩
  · rintro ⟨id, found⟩
    exact ⟨(id, obj), (List.mem_insertionSort _).mpr ((Dict.mem_entries_iff _ _ _).mpr found), rfl⟩

theorem get_found {state : State} {tick : Int} {flag : Bytes} (sound : Sound state)
    (indexed : Indexed tick flag state) {env : Env} (held : Held (flagObject env tick flag) state)
    (status : Int) : getFlag state tick 0 flag status = some true := by
  obtain ⟨row, found, same⟩ := indexed
  have stored : readFlagIndex state.disk tick 0 = flag := by rw [readFlagIndex, found, ← same]
  have hex (obj : VaultObject) (member : obj ∈ inKeyOrder state.objects) :
      ∀ shard ∈ obj.shards, IsHex shard := by
    obtain ⟨id, present⟩ := in_key_order.mp member
    exact sound.objects id obj present
  unfold getFlag
  rw [if_neg (fun other => other stored), if_pos rfl]
  exact scan_found hex (in_key_order.mpr ⟨_, held.object⟩) rfl (xor_split flag _)

theorem get_refused {state : State} {tick : Int} {flag text : Bytes}
    (indexed : Indexed tick text state) (cut : text ≠ flag) (status : Int) :
    getFlag state tick 0 flag status = some false := by
  obtain ⟨row, found, same⟩ := indexed
  have stored : readFlagIndex state.disk tick 0 = text := by rw [readFlagIndex, found, ← same]
  unfold getFlag
  rw [stored, if_pos cut]

/-! A flag over a run. -/

/-- What put_flag leaves: the stored text in the index, and where it is the whole flag, the object
in the map and on disk. -/
theorem run_after_put {env : Env} (before later : List Call) {tick : Int} {flag drawn : Bytes}
    {resp : Answer}
    (stored : (putFlag env (run env (init Disk.empty) before) tick 0 flag drawn resp).1.isOk = true)
    (others : ∀ call ∈ later, call.ForOthers tick)
    (noCollision : NoCollision ((.putFlag tick 0 flag drawn resp :: later).flatMap (Call.idTexts env))) :
    ∃ text, bindText flag = some text ∧
      Indexed tick text (run env (init Disk.empty) (before ++ .putFlag tick 0 flag drawn resp :: later)) ∧
      (text = flag →
        Held (flagObject env tick flag)
        (run env (init Disk.empty) (before ++ .putFlag tick 0 flag drawn resp :: later))) := by
  have split : run env (init Disk.empty) (before ++ .putFlag tick 0 flag drawn resp :: later) =
      run env (putFlagVault env (run env (init Disk.empty) before) tick flag).2 later := by
    unfold run
    rw [List.foldl_append, List.foldl_cons, step, put_flag_zero]
  rw [put_flag_zero] at stored
  cases result : putFlagVault env (run env (init Disk.empty) before) tick flag with
  | mk answer after =>
      rw [result] at stored split
      cases answer with
      | error text => cases stored
      | ok info =>
          obtain ⟨text, bound, indexed, held⟩ := put_vault_ok result
          rw [split]
          refine ⟨text, bound, ?_, fun whole => ?_⟩
          · exact run_keeps (fun call member _ _ change =>
              indexed_kept (later_index (others call member)) change) indexed
          · refine run_keeps (fun call member _ _ change => held_kept (fun other made same => ?_)
              change) (held whole)
            obtain ⟨hashed, mine, id⟩ := made_id made
            have inside :
                hashed ∈ (Call.putFlag tick 0 flag drawn resp :: later).flatMap (Call.idTexts env) :=
              List.mem_flatMap.mpr ⟨call, List.mem_cons_of_mem _ member, mine⟩
            have own : flagText env tick flag ∈
                (Call.putFlag tick 0 flag drawn resp :: later).flatMap (Call.idTexts env) :=
              List.mem_flatMap.mpr ⟨_, List.mem_cons_self, List.mem_singleton_self _⟩
            exact later_text (others call member) mine (noCollision _ own _ inside (same.symm.trans id))

/-- After put_flag of a flag without NUL for (tick, 0) in any reachable state, and any later calls
for other pairs, the flag is found if and only if its size fits 32 bits, which is where the cast in
Statement::bind starts to cut. -/
theorem vault_keeps_flag_iff (env : Env) (before later : List Call) (tick : Int)
    (flag drawn : Bytes) (resp : Answer) (status : Int) (noNul : (0 : UInt8) ∉ flag)
    (stored : (putFlag env (run env (init Disk.empty) before) tick 0 flag drawn resp).1.isOk = true)
    (others : ∀ call ∈ later, call.ForOthers tick)
    (noCollision : NoCollision ((.putFlag tick 0 flag drawn resp :: later).flatMap (Call.idTexts env))) :
    (∀ objectId, xorShards (splitSecret flag objectId) = some flag) ∧
      (getFlag (run env (init Disk.empty) (before ++ .putFlag tick 0 flag drawn resp :: later)) tick 0
        flag status = some true ↔ flag.length < 2 ^ 32) := by
  refine ⟨xor_split flag, ?_⟩
  obtain ⟨text, bound, indexed, held⟩ := run_after_put before later stored others noCollision
  have sound : Sound (run env (init Disk.empty) (before ++ .putFlag tick 0 flag drawn resp :: later)) :=
    run_keeps (fun _ _ _ _ change => sound_kept change) sound_empty
  constructor
  · intro found
    by_contra long
    have cut : text ≠ flag := fun same => long ((bind_whole_iff noNul bound).mp same)
    rw [get_refused indexed cut status] at found
    cases found
  · intro short
    have whole := whole_column bound noNul short
    rw [whole] at indexed
    exact get_found sound indexed (held whole) status

/-- Every flag that the service can receive is put together again from its shards, and is found
after put_flag for (tick, 0) in any reachable state and any later calls for other pairs. Its
container has 384 MiB, so no flag of 4 GiB ever reaches put_flag. -/
theorem vault_keeps_flag (env : Env) (before later : List Call) (tick : Int) (flag drawn : Bytes)
    (resp : Answer) (status : Int) (received : flag.length < 2 ^ 32) (noNul : (0 : UInt8) ∉ flag)
    (stored : (putFlag env (run env (init Disk.empty) before) tick 0 flag drawn resp).1.isOk = true)
    (others : ∀ call ∈ later, call.ForOthers tick)
    (noCollision : NoCollision ((.putFlag tick 0 flag drawn resp :: later).flatMap (Call.idTexts env))) :
    (∀ objectId, xorShards (splitSecret flag objectId) = some flag) ∧
      getFlag (run env (init Disk.empty) (before ++ .putFlag tick 0 flag drawn resp :: later)) tick 0
        flag status = some true := by
  obtain ⟨whole, found⟩ :=
    vault_keeps_flag_iff env before later tick flag drawn resp status noNul stored others noCollision
  exact ⟨whole, found.mpr received⟩

def team : Env := ⟨utf8 "team", utf8 "svc2"⟩

def nobody : Answer := ⟨0, []⟩

/-- The same flag for the next tick, a noise for the same one, both sidecars, and a restart. -/
def evening : List Call :=
  [.putFlag 2 0 (utf8 "FLAG") [] nobody, .putFlag 1 1 (utf8 "OTHER") [] ⟨200, []⟩, .putNoise 1 0,
    .havoc 1 0, .readMeta [], .restart, .request]

theorem short_flag_kept :
    (∀ objectId, xorShards (splitSecret (utf8 "FLAG") objectId) = some (utf8 "FLAG")) ∧
    getFlag (run team (init Disk.empty) ([.putNoise 0 0] ++
      .putFlag 1 0 (utf8 "FLAG") [] nobody :: evening)) 1 0 (utf8 "FLAG") 0 = some true := by
  have distinct :
      NoCollision ((.putFlag 1 0 (utf8 "FLAG") [] nobody :: evening).flatMap (Call.idTexts team)) := by
    unfold NoCollision
    decide +kernel
  exact vault_keeps_flag team [.putNoise 0 0] evening 1 (utf8 "FLAG") [] nobody 0 (by decide) (by decide)
    (put_flag_stored (by decide) (by decide) _ _ _ _ _) (by decide) distinct

end KosSim.VaultState
