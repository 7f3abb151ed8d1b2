import KosSim.Library.Dict
import KosSim.Library.Runs

/-!
One row read and rewritten by concurrent transactions under READ COMMITTED. A
read sees the committed version or the transaction's own uncommitted one and
takes no lock; the first write takes the row lock until the transaction ends.
`act` computes the version an operation writes from the version it has read,
none when it writes nothing. Nothing else orders the reads and the writes.
-/

namespace KosSim.Library.SharedRow

variable {ρ κ : Type}

/-- `log` records every operation done, with its time where it wrote. -/
structure Txn (ρ κ : Type) where
  request : List κ
  todo : List κ
  held : Option ρ
  log : List (κ × Option Int)
  deriving DecidableEq

structure Shared (ρ κ : Type) where
  row : ρ
  writer : Option (Nat × ρ)
  clients : Dict Nat (Txn ρ κ)
  deriving DecidableEq

inductive Event (κ : Type) where
  | start (client : Nat) (request : List κ)
  | load (client : Nat)
  | act (client : Nat) (now : Int)
  | commit (client : Nat)
  | rollback (client : Nat)
  deriving DecidableEq

def initial (row : ρ) : Shared ρ κ := ⟨row, none, Dict.empty⟩

def view (shared : Shared ρ κ) (client : Nat) : ρ :=
  match shared.writer with
  | some (holder, version) => if holder = client then version else shared.row
  | none => shared.row

def holds (shared : Shared ρ κ) (client : Nat) : Bool :=
  match shared.writer with
  | some (holder, _) => decide (holder = client)
  | none => false

def lockFree (shared : Shared ρ κ) (client : Nat) : Bool := shared.writer.isNone || holds shared client

def leave (shared : Shared ρ κ) (client : Nat) (row : ρ) : Shared ρ κ :=
  { row := row
    writer := if holds shared client then none else shared.writer
    clients := shared.clients.filter fun other _ => decide (other ≠ client) }

def noted (txn : Txn ρ κ) (operation : κ) (rest : List κ) (wrote : Option Int) : Txn ρ κ :=
  { txn with todo := rest, held := none, log := txn.log ++ [(operation, wrote)] }

def step (act : κ → Int → ρ → Option ρ) (shared : Shared ρ κ) : Event κ → Option (Shared ρ κ)
  | .start client request =>
      if shared.clients.contains client then none
      else some { shared with clients := shared.clients.set client ⟨request, request, none, []⟩ }
  | .load client =>
      match shared.clients.get? client with
      | some txn =>
          if txn.todo.isEmpty ∨ txn.held.isSome then none
          else some { shared with
            clients := shared.clients.set client { txn with held := some (view shared client) } }
      | none => none
  | .act client now =>
      match shared.clients.get? client with
      | some txn =>
          match txn.todo, txn.held with
          | operation :: rest, some loaded =>
              match act operation now loaded with
              | none =>
                  some { shared with clients := shared.clients.set client (noted txn operation rest none) }
              | some version =>
                  -- The UPDATE waits while another transaction holds the row lock.
                  if lockFree shared client then
                    some { shared with
                      writer := some (client, version)
                      clients := shared.clients.set client (noted txn operation rest (some now)) }
                  else none
          | _, _ => none
      | none => none
  | .commit client =>
      match shared.clients.get? client with
      | some txn => if txn.todo.isEmpty then some (leave shared client (view shared client)) else none
      | none => none
  | .rollback client =>
      match shared.clients.get? client with
      | some _ => some (leave shared client shared.row)
      | none => none

/-! A write is fresh when the row still is what the operation has read. -/

def fresh [DecidableEq ρ] (act : κ → Int → ρ → Option ρ) (shared : Shared ρ κ) : Event κ → Bool
  | .act client now =>
      match shared.clients.get? client with
      | some txn =>
          match txn.todo, txn.held with
          | operation :: _, some loaded =>
              (act operation now loaded).isNone || decide (loaded = view shared client)
          | _, _ => true
      | none => true
  | _ => true

def replay (act : κ → Int → ρ → Option ρ) : List (κ × Option Int) → ρ → Option ρ
  | [], row => some row
  | (_, none) :: rest, row => replay act rest row
  | (operation, some now) :: rest, row => (act operation now row).bind (replay act rest)

theorem replay_append (act : κ → Int → ρ → Option ρ) (first second : List (κ × Option Int)) (row : ρ) :
    replay act (first ++ second) row = (replay act first row).bind (replay act second) := by
  induction first generalizing row with
  | nil => rfl
  | cons entry rest ih =>
      obtain ⟨operation, wrote⟩ := entry
      cases wrote with
      | none => exact ih row
      | some now =>
          simp only [List.cons_append, replay]
          cases act operation now row with
          | none => rfl
          | some next => exact ih next

theorem replay_silent (act : κ → Int → ρ → Option ρ) (log : List (κ × Option Int)) (row : ρ)
    (silent : ∀ entry ∈ log, entry.2 = none) : replay act log row = some row := by
  induction log with
  | nil => rfl
  | cons entry rest ih =>
      obtain ⟨operation, wrote⟩ := entry
      have quiet : wrote = none := silent _ List.mem_cons_self
      rw [quiet]
      exact ih fun other member => silent other (List.mem_cons_of_mem _ member)

/-- What a transaction has logged: its request so far, every silent operation silent for a reason. -/
structure Logged (act : κ → Int → ρ → Option ρ) (txn : Txn ρ κ) : Prop where
  order : txn.log.map Prod.fst ++ txn.todo = txn.request
  quiet : ∀ operation, (operation, none) ∈ txn.log → ∃ now row, act operation now row = none

/-- The invariant: the writer's version is its logged writes applied to the committed row. -/
structure Serial (act : κ → Int → ρ → Option ρ) (shared : Shared ρ κ) : Prop where
  logged : ∀ client txn, shared.clients.get? client = some txn → Logged act txn
  silent : ∀ client txn, shared.clients.get? client = some txn → holds shared client = false →
    ∀ entry ∈ txn.log, entry.2 = none
  writer : ∀ client version, shared.writer = some (client, version) →
    ∃ txn, shared.clients.get? client = some txn ∧ replay act txn.log shared.row = some version

theorem initial_serial (act : κ → Int → ρ → Option ρ) (row : ρ) : Serial act (initial row) where
  logged := by intro client txn present; cases present
  silent := by intro client txn present; cases present
  writer := by intro client version held; cases held

theorem holds_iff (shared : Shared ρ κ) (client : Nat) :
    holds shared client = true ↔ ∃ version, shared.writer = some (client, version) := by
  unfold holds
  cases writer : shared.writer with
  | none => simp
  | some pair =>
      obtain ⟨holder, version⟩ := pair
      simp

theorem view_of_holder (shared : Shared ρ κ) (client : Nat) (version : ρ)
    (held : shared.writer = some (client, version)) : view shared client = version := by
  simp [view, held]

theorem view_of_reader (shared : Shared ρ κ) (client : Nat) (reading : holds shared client = false) :
    view shared client = shared.row := by
  unfold holds at reading
  unfold view
  cases writer : shared.writer with
  | none => rfl
  | some pair =>
      obtain ⟨holder, version⟩ := pair
      rw [writer] at reading
      simp only [decide_eq_false_iff_not] at reading
      simp [reading]

/-- The log replayed on the committed row gives what the transaction itself sees. -/
theorem replay_view {act : κ → Int → ρ → Option ρ} {shared : Shared ρ κ} (serial : Serial act shared)
    {client : Nat} {txn : Txn ρ κ} (present : shared.clients.get? client = some txn) :
    replay act txn.log shared.row = some (view shared client) := by
  cases holding : holds shared client with
  | false =>
      rw [view_of_reader shared client holding]
      exact replay_silent act txn.log shared.row (serial.silent client txn present holding)
  | true =>
      obtain ⟨version, held⟩ := (holds_iff shared client).mp holding
      obtain ⟨other, found, replayed⟩ := serial.writer client version held
      rw [present] at found
      rw [view_of_holder shared client version held, Option.some.inj found]
      exact replayed

theorem get_after_leave (shared : Shared ρ κ) (client other : Nat) (row : ρ) (txn : Txn ρ κ)
    (present : (leave shared client row).clients.get? other = some txn) :
    other ≠ client ∧ shared.clients.get? other = some txn := by
  rw [leave, Dict.get_filter, Option.filter_eq_some_iff] at present
  exact ⟨by simpa using present.2, present.1⟩

theorem holds_after_leave (shared : Shared ρ κ) (client other : Nat) (row : ρ) (apart : other ≠ client)
    (free : holds (leave shared client row) other = false) : holds shared other = false := by
  cases holding : holds shared other with
  | false => rfl
  | true =>
      obtain ⟨version, held⟩ := (holds_iff shared other).mp holding
      have reading : holds shared client = false := by
        simp [holds, held, apart]
      have kept : (leave shared client row).writer = some (other, version) := by
        simp [leave, reading, held]
      rw [(holds_iff _ other).mpr ⟨version, kept⟩] at free
      cases free

/-- A transaction that ends leaves the others as they were, whatever row it commits,
provided that it held the lock or changes nothing. -/
theorem leave_serial {act : κ → Int → ρ → Option ρ} {shared : Shared ρ κ} (serial : Serial act shared)
    (client : Nat) (row : ρ) (kept : holds shared client = false → row = shared.row) :
    Serial act (leave shared client row) where
  logged := fun other txn present =>
    serial.logged other txn (get_after_leave shared client other row txn present).2
  silent := by
    intro other txn present free
    obtain ⟨apart, before⟩ := get_after_leave shared client other row txn present
    exact serial.silent other txn before (holds_after_leave shared client other row apart free)
  writer := by
    intro other version held
    cases holding : holds shared client with
    | true => simp [leave, holding] at held
    | false =>
        have lock : shared.writer = some (other, version) := by simpa [leave, holding] using held
        have apart : other ≠ client := by
          intro same
          rw [← same, (holds_iff shared other).mpr ⟨version, lock⟩] at holding
          cases holding
        obtain ⟨txn, present, replayed⟩ := serial.writer other version lock
        refine ⟨txn, ?_, ?_⟩
        · rw [leave, Dict.get_filter, present]
          simp [apart]
        · rw [leave, kept holding]
          exact replayed

theorem noted_logged {act : κ → Int → ρ → Option ρ} {txn : Txn ρ κ} (logged : Logged act txn)
    (operation : κ) (rest : List κ) (wrote : Option Int) (next : txn.todo = operation :: rest)
    (reason : wrote = none → ∃ now row, act operation now row = none) :
    Logged act (noted txn operation rest wrote) where
  order := by
    show (txn.log ++ [(operation, wrote)]).map Prod.fst ++ rest = txn.request
    rw [← logged.order, next]
    simp
  quiet := by
    intro other member
    rcases List.mem_append.mp member with before | last
    · exact logged.quiet other before
    · have same := List.mem_singleton.mp last
      simp only [Prod.mk.injEq] at same
      rw [same.1]
      exact reason same.2.symm

theorem lock_free_iff (shared : Shared ρ κ) (client : Nat) :
    lockFree shared client = true ↔ shared.writer = none ∨ holds shared client = true := by
  simp [lockFree]

theorem start_serial {act : κ → Int → ρ → Option ρ} {shared : Shared ρ κ} (serial : Serial act shared)
    (client : Nat) (request : List κ) (unused : shared.clients.get? client = none) :
    Serial act { shared with clients := shared.clients.set client ⟨request, request, none, []⟩ } where
  logged := by
    intro other txn present
    rw [Dict.get_set] at present
    split at present
    · rw [← Option.some.inj present]
      exact ⟨rfl, by simp⟩
    · exact serial.logged other txn present
  silent := by
    intro other txn present free
    rw [Dict.get_set] at present
    split at present
    · rw [← Option.some.inj present]
      simp
    · exact serial.silent other txn present free
  writer := by
    intro other version held
    obtain ⟨txn, present, replayed⟩ := serial.writer other version held
    refine ⟨txn, ?_, replayed⟩
    rw [Dict.get_set_other _ _ _ _ (by rintro rfl; rw [unused] at present; cases present)]
    exact present

/-- Replacing one transaction's record without touching its log. -/
theorem load_serial {act : κ → Int → ρ → Option ρ} {shared : Shared ρ κ} (serial : Serial act shared)
    (client : Nat) (txn : Txn ρ κ) (present : shared.clients.get? client = some txn) (held : Option ρ) :
    Serial act { shared with clients := shared.clients.set client { txn with held := held } } where
  logged := by
    intro other record found
    rw [Dict.get_set] at found
    split at found
    · rw [← Option.some.inj found]
      exact ⟨(serial.logged client txn present).order, (serial.logged client txn present).quiet⟩
    · exact serial.logged other record found
  silent := by
    intro other record found free
    rw [Dict.get_set] at found
    split at found
    · next same =>
      rw [← Option.some.inj found]
      exact serial.silent client txn present (by rw [same]; exact free)
    · exact serial.silent other record found free
  writer := by
    intro other version lock
    obtain ⟨record, found, replayed⟩ := serial.writer other version lock
    rw [Dict.get_set]
    split
    · next same =>
      rw [← same, present] at found
      rw [← Option.some.inj found] at replayed
      exact ⟨_, rfl, replayed⟩
    · exact ⟨record, found, replayed⟩

theorem quiet_serial {act : κ → Int → ρ → Option ρ} {shared : Shared ρ κ} (serial : Serial act shared)
    (client : Nat) (txn : Txn ρ κ) (present : shared.clients.get? client = some txn)
    (operation : κ) (rest : List κ) (next : txn.todo = operation :: rest)
    (reason : ∃ now row, act operation now row = none) :
    Serial act { shared with clients := shared.clients.set client (noted txn operation rest none) } where
  logged := by
    intro other record found
    rw [Dict.get_set] at found
    split at found
    · rw [← Option.some.inj found]
      exact noted_logged (serial.logged client txn present) operation rest none next fun _ => reason
    · exact serial.logged other record found
  silent := by
    intro other record found free
    rw [Dict.get_set] at found
    split at found
    · next same =>
      rw [← Option.some.inj found]
      intro entry member
      rcases List.mem_append.mp member with before | last
      · exact serial.silent client txn present (by rw [same]; exact free) entry before
      · rw [List.mem_singleton.mp last]
    · exact serial.silent other record found free
  writer := by
    intro other version lock
    obtain ⟨record, found, replayed⟩ := serial.writer other version lock
    rw [Dict.get_set]
    split
    · next same =>
      rw [← same, present] at found
      refine ⟨_, rfl, ?_⟩
      rw [← Option.some.inj found] at replayed
      show replay act (txn.log ++ [(operation, none)]) shared.row = some version
      rw [replay_append, replayed]
      rfl
    · exact ⟨record, found, replayed⟩

/-- The only step that needs the condition: a fresh write extends the replay. -/
theorem write_serial {act : κ → Int → ρ → Option ρ} {shared : Shared ρ κ} (serial : Serial act shared)
    (client : Nat) (txn : Txn ρ κ) (present : shared.clients.get? client = some txn)
    (operation : κ) (rest : List κ) (next : txn.todo = operation :: rest) (now : Int) (version : ρ)
    (free : lockFree shared client = true) (wrote : act operation now (view shared client) = some version) :
    Serial act { shared with
      writer := some (client, version)
      clients := shared.clients.set client (noted txn operation rest (some now)) } where
  logged := by
    intro other record found
    rw [Dict.get_set] at found
    split at found
    · rw [← Option.some.inj found]
      exact noted_logged (serial.logged client txn present) operation rest (some now) next fun silent => by
        cases silent
    · exact serial.logged other record found
  silent := by
    intro other record found reading
    have apart : client ≠ other := by simpa [holds] using reading
    rw [Dict.get_set_other _ _ _ _ apart] at found
    apply serial.silent other record found
    rcases (lock_free_iff shared client).mp free with unlocked | holding
    · simp [holds, unlocked]
    · obtain ⟨previous, lock⟩ := (holds_iff shared client).mp holding
      simp [holds, lock, apart]
  writer := by
    intro other later lock
    simp only [Option.some.injEq, Prod.mk.injEq] at lock
    obtain ⟨rfl, rfl⟩ := lock
    refine ⟨_, Dict.get_set_self _ _ _, ?_⟩
    show replay act (txn.log ++ [(operation, some now)]) shared.row = some version
    rw [replay_append, replay_view serial present]
    simp [replay, wrote]

variable [DecidableEq ρ]

theorem step_serial {act : κ → Int → ρ → Option ρ} (before : Shared ρ κ) (event : Event κ)
    (after : Shared ρ κ) (serial : Serial act before) (met : fresh act before event = true)
    (taken : step act before event = some after) : Serial act after := by
  cases event with
  | start client request =>
      simp only [step] at taken
      split at taken
      · cases taken
      · next unused =>
        cases taken
        exact start_serial serial client request (by simpa [Dict.contains] using unused)
  | load client =>
      simp only [step] at taken
      split at taken
      · next txn present =>
        split at taken
        · cases taken
        · cases taken
          exact load_serial serial client txn present _
      · cases taken
  | act client now =>
      simp only [step] at taken
      split at taken
      · next txn present =>
        split at taken
        · next operation rest loaded next held =>
          split at taken
          · next silent =>
            cases taken
            exact quiet_serial serial client txn present operation rest next ⟨now, loaded, silent⟩
          · next version wrote =>
            split at taken
            · next free =>
              cases taken
              have current : loaded = view before client := by
                simpa [fresh, present, next, held, wrote] using met
              exact write_serial serial client txn present operation rest next now version free
                (by rw [← current]; exact wrote)
            · cases taken
        · cases taken
      · cases taken
  | commit client =>
      simp only [step] at taken
      split at taken
      · split at taken
        · cases taken
          exact leave_serial serial client _ (view_of_reader before client)
        · cases taken
      · cases taken
  | rollback client =>
      simp only [step] at taken
      split at taken
      · cases taken
        exact leave_serial serial client _ fun _ => rfl
      · cases taken

theorem run_serial {act : κ → Int → ρ → Option ρ} (row : ρ) (shared : Shared ρ κ)
    (run : Steps (step act) (fun state event => fresh act state event = true) (initial row) shared) :
    Serial act shared :=
  steps_invariant (Serial act) step_serial (initial_serial act row) run

omit [DecidableEq ρ] in
theorem row_kept (act : κ → Int → ρ → Option ρ) (before : Shared ρ κ) (event : Event κ) (after : Shared ρ κ)
    (other : ∀ client, event ≠ .commit client) (taken : step act before event = some after) :
    after.row = before.row := by
  cases event with
  | commit client => exact absurd rfl (other client)
  | _ =>
      simp only [step] at taken
      repeat' split at taken
      all_goals cases taken <;> rfl

omit [DecidableEq ρ] in
/-- Serializability: a committed transaction is its logged writes, done at once. -/
theorem commit_replays {act : κ → Int → ρ → Option ρ} {before after : Shared ρ κ}
    (serial : Serial act before) {client : Nat} {txn : Txn ρ κ}
    (present : before.clients.get? client = some txn)
    (taken : step act before (.commit client) = some after) :
    txn.log.map Prod.fst = txn.request ∧
      (∀ operation, (operation, none) ∈ txn.log → ∃ now row, act operation now row = none) ∧
      replay act txn.log before.row = some after.row := by
  simp only [step, present] at taken
  split at taken
  · next finished =>
    cases taken
    have logged := serial.logged client txn present
    have order := logged.order
    rw [List.isEmpty_iff.mp finished, List.append_nil] at order
    exact ⟨order, logged.quiet, replay_view serial present⟩
  · cases taken

end KosSim.Library.SharedRow
