import KosSim.VaultFeed

/-!
A tenant's record in the feed. Its bytes stay where the log has them; its row is replaced by
whoever appends under its id, and anyone may append to the public tenant.
-/

namespace KosSim.VaultFeed
open Library

variable {app next last : App} {header id tenant : String} {request : Request} {body : AppendReq}
  {value : List UInt8}

/-- An append that a client without the secret may make, under the id. -/
def Overwrites (id : String) : Request → Prop
  | .appendRecord (some body) _ => body.id = id ∧ body.tenant = "public" ∧
      ∃ value, hexDecode body.value = some value ∧ value.length ≤ maxAlloc
  | _ => False

/-! What one request does. -/

theorem append_accepted (decoded : hexDecode body.value = some value)
    (small : value.length ≤ maxAlloc) (named : body.id ≠ "" ∧ body.tenant ≠ "")
    (allowed : body.tenant = "public" ∨ header = app.secret) (now : Int64) :
    handleAppend app header (some body) now = (store app body value now,
      .appended body.id body.tenant (Int64.ofNat app.log.length) (statedLength body value)) := by
  have filled : ¬ (body.id = "" ∨ body.tenant = "") := not_or.mpr named
  have passed : ¬ (body.tenant ≠ "public" ∧ (!requireSecret app header) = true) := by
    rintro ⟨foreign, unsigned⟩
    have signed := allowed.resolve_left foreign
    simp [requireSecret, signed] at unsigned
  simp only [handleAppend, decoded, if_neg (Nat.not_lt.mpr small), if_neg filled, if_neg passed]

/-- Every handled append either leaves the store or writes one record into it. -/
theorem append_cases (app : App) (header : String) (request : Option AppendReq) (now : Int64) :
    ((handleAppend app header request now).1 = app ∧
        ∀ id tenant offset length, (handleAppend app header request now).2 ≠
        .appended id tenant offset length) ∨
      ∃ body value, request = some body ∧ hexDecode body.value = some value ∧ value.length ≤ maxAlloc ∧
        (body.id ≠ "" ∧ body.tenant ≠ "") ∧ (body.tenant = "public" ∨ header = app.secret) ∧
        (handleAppend app header request now).1 = store app body value now := by
  cases request with
  | none => exact .inl ⟨rfl, fun _ _ _ _ => nofun⟩
  | some body =>
      cases decoded : hexDecode body.value with
      | none => exact .inl (by simp [handleAppend, decoded])
      | some value =>
          by_cases large : maxAlloc < value.length
          · exact .inl (by simp [handleAppend, decoded, if_pos large])
          by_cases unnamed : body.id = "" ∨ body.tenant = ""
          · exact .inl (by simp [handleAppend, decoded, if_neg large, if_pos unnamed])
          by_cases barred : body.tenant ≠ "public" ∧ (!requireSecret app header) = true
          · exact .inl (by
              simp only [handleAppend, decoded, if_neg large, if_neg unnamed, if_pos barred]
              simp)
          have allowed : body.tenant = "public" ∨ header = app.secret := by
            by_contra neither
            obtain ⟨foreign, unsigned⟩ := not_or.mp neither
            exact barred ⟨foreign, by simp [requireSecret, unsigned]⟩
          have small := Nat.not_lt.mp large
          exact .inr ⟨body, value, rfl, decoded, small, not_or.mp unnamed, allowed,
            congrArg Prod.fst (append_accepted decoded small (not_or.mp unnamed) allowed now)⟩

theorem step_append {request : Option AppendReq} {now : Int64}
    (taken : step app (header, .appendRecord request now) = some next) :
    next = (handleAppend app header request now).1 ∧ next.log.length < 2 ^ 63 := by
  obtain ⟨fits, same⟩ := Option.ite_none_right_eq_some.mp taken
  rw [← Option.some.inj same]
  exact ⟨rfl, fits⟩

/-- The log only grows, and the secret is the process's. -/
theorem step_grows (taken : step app (header, request) = some next) :
    next.secret = app.secret ∧ (∃ more, next.log = app.log ++ more) ∧
      (app.log.length < 2 ^ 63 → next.log.length < 2 ^ 63) := by
  cases request with
  | appendRecord request now =>
      obtain ⟨same, fits⟩ := step_append taken
      rcases append_cases app header request now with ⟨idle, _⟩ | ⟨body, value, _, _, _, _, _, stored⟩
      · rw [idle] at same
        subst same
        exact ⟨rfl, ⟨[], (List.append_nil _).symm⟩, fun _ => fits⟩
      · rw [stored] at same
        subst same
        exact ⟨rfl, ⟨_, List.append_assoc _ _ _⟩, fun _ => fits⟩
  | showRecord id tenant =>
      cases taken
      exact ⟨rfl, ⟨[], (List.append_nil _).symm⟩, fun held => held⟩
  | listRecords tenant =>
      cases taken
      exact ⟨rfl, ⟨[], (List.append_nil _).symm⟩, fun held => held⟩

theorem step_row_kept (unsigned : header ≠ app.secret) (apart : ¬ Overwrites id request)
    (taken : step app (header, request) = some next) : next.records.get? id = app.records.get? id := by
  cases request with
  | appendRecord request now =>
      obtain ⟨same, _⟩ := step_append taken
      rcases append_cases app header request now with ⟨idle, _⟩ | ⟨body, value, rfl, decoded, small, _,
        allowed, stored⟩
      · rw [same, idle]
      · rw [same, stored, store, Dict.get_set_other]
        intro hit
        exact apart ⟨hit, allowed.resolve_right unsigned, value, decoded, small⟩
  | showRecord shown tenant =>
      cases taken
      rfl
  | listRecords tenant =>
      cases taken
      rfl

/-- The record of a public append under the id, whoever held the id before. -/
theorem step_overwritten (named : id ≠ "") (hit : Overwrites id request)
    (taken : step app (header, request) = some next) :
    ∃ row, next.records.get? id = some row ∧ row.tenant = "public" := by
  match request, hit with
  | .appendRecord (some body) now, ⟨same, tenant, value, decoded, small⟩ =>
      obtain ⟨after, _⟩ := step_append taken
      rw [after, append_accepted decoded small ⟨same ▸ named, by rw [tenant]; decide⟩ (.inl tenant) now,
        store, same]
      exact ⟨_, Dict.get_set_self _ _ _, tenant⟩

/-! Runs of clients without the secret. -/

theorem run_cons {call : String × Request} {rest : List (String × Request)}
    (ran : run app (call :: rest) = some last) :
    ∃ next, step app call = some next ∧ run next rest = some last := by
  rw [run, exec, if_pos trivial] at ran
  exact Option.bind_eq_some_iff.mp ran

theorem run_grows {calls : List (String × Request)} (ran : run app calls = some last) :
    (∃ more, last.log = app.log ++ more) ∧ (app.log.length < 2 ^ 63 → last.log.length < 2 ^ 63) := by
  induction calls generalizing app with
  | nil =>
      cases ran
      exact ⟨⟨[], (List.append_nil _).symm⟩, fun held => held⟩
  | cons call rest ih =>
      obtain ⟨next, taken, ran⟩ := run_cons ran
      obtain ⟨_, ⟨more, grown⟩, fits⟩ := step_grows taken
      obtain ⟨⟨later, grownLater⟩, fitsLater⟩ := ih ran
      exact ⟨⟨more ++ later, by rw [grownLater, grown, List.append_assoc]⟩,
        fun held => fitsLater (fits held)⟩

theorem run_row_kept {calls : List (String × Request)} (unsigned : ∀ call ∈ calls, call.1 ≠ app.secret)
    (apart : ∀ call ∈ calls, ¬ Overwrites id call.2) (ran : run app calls = some last) :
    last.records.get? id = app.records.get? id := by
  induction calls generalizing app with
  | nil =>
      cases ran
      rfl
  | cons call rest ih =>
      obtain ⟨next, taken, ran⟩ := run_cons ran
      have secret := (step_grows taken).1
      rw [ih (fun later member => secret ▸ unsigned later (List.mem_cons_of_mem _ member))
        (fun later member => apart later (List.mem_cons_of_mem _ member)) ran]
      exact step_row_kept (unsigned call List.mem_cons_self) (apart call List.mem_cons_self) taken

/-- Once it is public, the row under an id stays public. -/
theorem run_public {calls : List (String × Request)} (named : id ≠ "")
    (unsigned : ∀ call ∈ calls, call.1 ≠ app.secret)
    (opened : (∃ row, app.records.get? id = some row ∧ row.tenant = "public") ∨
      ∃ call ∈ calls, Overwrites id call.2) (ran : run app calls = some last) :
    ∃ row, last.records.get? id = some row ∧ row.tenant = "public" := by
  induction calls generalizing app with
  | nil =>
      cases ran
      rcases opened with held | ⟨call, member, _⟩
      · exact held
      · cases member
  | cons call rest ih =>
      obtain ⟨next, taken, ran⟩ := run_cons ran
      have secret := (step_grows taken).1
      refine ih (fun later member => secret ▸ unsigned later (List.mem_cons_of_mem _ member)) ?_ ran
      by_cases hit : Overwrites id call.2
      · exact .inl (step_overwritten named hit taken)
      rcases opened with held | ⟨other, member, overwrites⟩
      · rw [← step_row_kept (unsigned call List.mem_cons_self) hit taken] at held
        exact .inl held
      · rcases List.mem_cons.mp member with rfl | later
        · exact absurd overwrites hit
        · exact .inr ⟨other, later, overwrites⟩

/-! The bytes. -/

theorem of_nat_lt {m n : Nat} (mFits : m < 2 ^ 63) (nFits : n < 2 ^ 63) :
    Int64.ofNat m < Int64.ofNat n ↔ m < n := by
  rw [Int64.lt_iff_toInt_lt, Int64.toInt_ofNat_of_lt mFits, Int64.toInt_ofNat_of_lt nFits]
  exact Int.ofNat_lt

/-- A stored range of the log is read back, whatever was appended after it. -/
theorem read_bytes_stored (before value after : List UInt8)
    (fits : (before ++ value ++ after).length < 2 ^ 63) (small : value.length ≤ maxAlloc) :
    readBytes (before ++ value ++ after) (Int64.ofNat before.length)
      (Int64.ofNat value.length) = .bytes value := by
  have total : (before ++ value ++ after).length = before.length + value.length + after.length := by
    rw [List.length_append, List.length_append]
  have inside : ¬ Int64.ofNat (before ++ value ++ after).length < Int64.ofNat before.length := by
    rw [of_nat_lt fits (by omega)]
    omega
  have positive : ∀ n, n < 2 ^ 63 → ¬ Int64.ofNat n < 0 := fun n bound =>
    fun less => Nat.not_lt_zero n ((of_nat_lt bound (by decide)).mp less)
  have size : clampLength (Int64.ofNat before.length) (Int64.ofNat value.length)
      (Int64.ofNat (before ++ value ++ after).length) = Int64.ofNat value.length := by
    have ending : ¬ Int64.ofNat (before ++ value ++ after).length <
        Int64.ofNat before.length + Int64.ofNat value.length := by
      rw [← Int64.ofNat_add, of_nat_lt fits (by omega)]
      omega
    simp only [clampLength, if_neg ending, if_neg (positive value.length (by omega))]
  have buffer : readAt (before ++ value ++ after) before.length value.length = value := by
    simp [readAt]
  simp only [readBytes, if_neg inside, size,
    Int64.toNatClampNeg_ofNat_of_lt (show value.length < 2 ^ 63 by omega),
    if_neg (Nat.not_lt.mpr small), if_neg (positive before.length (by omega)),
    Int64.toNatClampNeg_ofNat_of_lt (show before.length < 2 ^ 63 by omega), buffer]

theorem show_stored {row : RecordRow} (named : id ≠ "" ∧ row.tenant ≠ "")
    (found : app.records.get? id = some row)
    (bytes : readBytes app.log row.fileOffset row.length = .bytes value) :
    handleShow app id row.tenant = .shown id row.tenant row.type row.length (hexEncode value) := by
  have filled : ¬ (id = "" ∨ row.tenant = "") := not_or.mpr named
  simp only [handleShow, if_neg filled, found, ne_eq, not_true_eq_false, if_false, bytes]

/-- A tenant's record is shown with its bytes after every run of clients without the secret
exactly when none of them appends a public record under its id. -/
theorem record_kept_iff {stored : App} {now offset length : Int64}
    (foreign : body.tenant ≠ "public") (plain : body.length = none)
    (decoded : hexDecode body.value = some value)
    (answered : (handleAppend app header (some body) now).2 = .appended body.id body.tenant offset length)
    (appended : step app (header, .appendRecord (some body) now) = some stored)
    {later : List (String × Request)} (unsigned : ∀ call ∈ later, call.1 ≠ app.secret)
    (ran : run stored later = some last) :
    handleShow last body.id body.tenant =
        .shown body.id body.tenant body.type (Int64.ofNat value.length) (hexEncode value) ↔
      ∀ call ∈ later, ¬ Overwrites body.id call.2 := by
  obtain ⟨same, fits⟩ := step_append appended
  rcases append_cases app header (some body) now with ⟨_, refused⟩ | ⟨_, other, equal, decodes, small,
    named, _, written⟩
  · exact absurd answered (refused _ _ _ _)
  cases equal
  cases Option.some.inj (decoded.symm.trans decodes)
  rw [written] at same
  have secret : stored.secret = app.secret := by rw [same]; rfl
  rw [← secret] at unsigned
  constructor
  · intro shown call member hit
    obtain ⟨row, found, tenant⟩ := run_public named.1 unsigned (.inr ⟨call, member, hit⟩) ran
    have wrong : row.tenant ≠ body.tenant := fun equal => foreign (equal.symm.trans tenant)
    have refused : handleShow last body.id body.tenant = .error 403 "wrong_tenant" := by
      simp only [handleShow, if_neg (not_or.mpr named), found, if_pos wrong]
    rw [refused] at shown
    cases shown
  · intro apart
    let row : RecordRow :=
      ⟨body.tenant, body.type, Int64.ofNat app.log.length + 5, Int64.ofNat value.length, now⟩
    have stated : statedLength body value = Int64.ofNat value.length := by rw [statedLength, plain]; rfl
    have found : last.records.get? body.id = some row := by
      rw [run_row_kept unsigned apart ran, same, store, Dict.get_set_self, stated]
    obtain ⟨⟨more, grown⟩, bounded⟩ := run_grows ran
    have log : last.log = app.log ++ body.type :: putUint32 (Int64.ofNat value.length) ++
        value ++ more := by
      rw [grown, same, store, stated]
    have start : Int64.ofNat app.log.length + 5 =
        Int64.ofNat (app.log ++ body.type :: putUint32 (Int64.ofNat value.length)).length := by
      rw [List.length_append, Int64.ofNat_add]
      rfl
    have bytes : readBytes last.log row.fileOffset row.length = .bytes value := by
      have total := bounded fits
      rw [log] at total
      rw [log, show row.fileOffset = _ from start]
      exact read_bytes_stored _ value more total small
    have shown : handleShow last body.id row.tenant =
        .shown body.id row.tenant row.type row.length (hexEncode value) := show_stored named found bytes
    exact shown

/-! A record of the checker, and a client that appends under its id. -/

def checkerRecord : AppendReq := ⟨"f00d", "checker", 2, "464c4147", none⟩

def feedStart : App := { secret := "grid" }

def feedStored : App := store feedStart checkerRecord [0x46, 0x4c, 0x41, 0x47] 0

def publicRecord (id : String) : AppendReq := ⟨id, "public", 2, "00", some (-1)⟩

theorem neighbour_keeps_record :
    handleShow (store feedStored (publicRecord "cafe") [0] 1) "f00d" "checker" =
      .shown "f00d" "checker" 2 4 "464c4147" := by
  have decoded : hexDecode checkerRecord.value = some [0x46, 0x4c, 0x41, 0x47] := by decide
  have answered : (handleAppend feedStart "grid" (some checkerRecord) 0).2 =
      .appended "f00d" "checker" 0 4 := by decide
  have appended : step feedStart ("grid", .appendRecord (some checkerRecord) 0) = some feedStored := by
    decide
  have ran : run feedStored [("", .appendRecord (some (publicRecord "cafe")) 1),
      ("", .listRecords "checker")] =
      some (store feedStored (publicRecord "cafe") [0] 1) := by decide
  refine (record_kept_iff (by decide) rfl decoded answered appended ?_ ran).mpr ?_
  · simp [feedStart]
  · simp [Overwrites, publicRecord, checkerRecord]

theorem public_append_takes_record : ∃ stored last,
    (handleAppend feedStart "grid" (some checkerRecord) 0).2 = .appended "f00d" "checker" 0 4 ∧
    step feedStart ("grid", .appendRecord (some checkerRecord) 0) = some stored ∧
    run stored [("", .appendRecord (some (publicRecord "f00d")) 1)] = some last ∧
    handleShow last "f00d" "checker" = .error 403 "wrong_tenant" := by
  exact ⟨feedStored, store feedStored (publicRecord "f00d") [0] 1, by decide, by decide,
    by decide, by decide⟩

end KosSim.VaultFeed
