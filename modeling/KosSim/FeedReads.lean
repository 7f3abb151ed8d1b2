import KosSim.FeedRecords
import Mathlib.Algebra.Group.Int.Defs

/-!
Reads of the feed's log. A record's offset lies in the log, its length is whatever the client
stated; the clamp of `readBytes` adds the two before it compares, and a sum past the last int64
comes out below every end.
-/

namespace KosSim.VaultFeed
open Library

/-- The bytes that the file has between the offset and the stated end. -/
structure ReadsWithin (log : List UInt8) (offset length : Int64) : Prop where
  reads : ∃ buf, readBytes log offset length = .bytes buf ∧
    (buf.length : Int) = min (max length.toInt 0) (log.length - offset.toInt) ∧
    buf <+: log.drop offset.toInt.toNat

/-! Int64 arithmetic. -/

theorem sum_in_range {offset length : Int64} (low : 0 ≤ offset.toInt)
    (fits : offset.toInt + length.toInt < 2 ^ 63) :
    (offset + length).toInt = offset.toInt + length.toInt := by
  have bottom := length.le_toInt
  rw [Int64.toInt_add]
  exact Int.bmod_eq_of_le (by omega) (by omega)

theorem sum_wrapped {offset length : Int64} (beyond : 2 ^ 63 ≤ offset.toInt + length.toInt) :
    (offset + length).toInt = offset.toInt + length.toInt - 2 ^ 64 := by
  have top := length.toInt_lt
  have high := offset.toInt_lt
  have turned : (offset.toInt + length.toInt - ((2 ^ 64 : Nat) : Int)).bmod (2 ^ 64) =
      offset.toInt + length.toInt - ((2 ^ 64 : Nat) : Int) := Int.bmod_eq_of_le (by omega) (by omega)
  rw [Int.sub_bmod_right] at turned
  rw [Int64.toInt_add, turned]
  rfl

/-- Where the sum stays an int64, the clamp takes what is there. -/
theorem clamp_in_range {offset length : Int64} (fileEnd : Int64) (low : 0 ≤ offset.toInt)
    (inside : offset.toInt ≤ fileEnd.toInt) (fits : offset.toInt + length.toInt < 2 ^ 63) :
    (clampLength offset length fileEnd).toInt = min (max length.toInt 0)
      (fileEnd.toInt - offset.toInt) := by
  have sum := sum_in_range low fits
  have rest : (fileEnd - offset).toInt = fileEnd.toInt - offset.toInt := by
    have top := fileEnd.toInt_lt
    rw [Int64.toInt_sub]
    exact Int.bmod_eq_of_le (by omega) (by omega)
  have zero : (0 : Int64).toInt = 0 := rfl
  unfold clampLength
  simp only [Int64.lt_iff_toInt_lt, sum, zero]
  split
  · next beyond =>
    rw [rest, if_neg (by omega), rest]
    omega
  · next within =>
    split
    · rw [zero]
      omega
    · omega

/-- Past the last int64 the stated length is taken as it is. -/
theorem clamp_wrapped {offset length fileEnd : Int64} (ending : 0 ≤ fileEnd.toInt)
    (beyond : 2 ^ 63 ≤ offset.toInt + length.toInt) : clampLength offset length fileEnd = length := by
  have sum := sum_wrapped beyond
  have top := length.toInt_lt
  have high := offset.toInt_lt
  have within : ¬fileEnd < offset + length := by
    rw [Int64.lt_iff_toInt_lt, sum]
    omega
  have positive : ¬length < 0 := by
    rw [Int64.lt_iff_toInt_lt]
    show ¬length.toInt < 0
    omega
  unfold clampLength
  dsimp only
  rw [if_neg within, if_neg positive]

/-! One read. -/

theorem read_bytes_inside {log : List UInt8} {offset : Int64} (length : Int64)
    (fits : log.length < 2 ^ 63) (low : 0 ≤ offset.toInt) (inside : offset.toInt ≤ log.length) :
    readBytes log offset length =
      if maxAlloc < (clampLength offset length (Int64.ofNat log.length)).toInt.toNat then .panicked
      else .bytes (readAt log offset.toInt.toNat
        (clampLength offset length (Int64.ofNat log.length)).toInt.toNat) := by
  have ending : (Int64.ofNat log.length).toInt = log.length := Int64.toInt_ofNat_of_lt fits
  have notPast : ¬Int64.ofNat log.length < offset := by
    rw [Int64.lt_iff_toInt_lt, ending]
    omega
  have notNegative : ¬offset < 0 := by
    rw [Int64.lt_iff_toInt_lt]
    exact Int.not_lt.mpr low
  unfold readBytes
  dsimp only
  rw [if_neg notPast, if_neg notNegative]
  rfl

theorem read_at_within {log : List UInt8} {offset size : Nat} (enough : size ≤ log.length - offset) :
    readAt log offset size = (log.drop offset).take size := by
  have full : ((log.drop offset).take size).length = size := by
    rw [List.length_take, List.length_drop]
    omega
  unfold readAt
  dsimp only
  rw [full, Nat.sub_self, List.replicate_zero, List.append_nil]

/-- A read from inside the log gives what is there exactly where the sum of offset and length is an
int64 and a slice can hold the bytes. -/
theorem reads_within_iff {log : List UInt8} {offset length : Int64} (fits : log.length < 2 ^ 63)
    (low : 0 ≤ offset.toInt) (inside : offset.toInt ≤ log.length) :
    ReadsWithin log offset length ↔ offset.toInt + length.toInt < 2 ^ 63 ∧
      (length.toInt ≤ maxAlloc ∨ log.length - offset.toInt ≤ maxAlloc) := by
  have ending : (Int64.ofNat log.length).toInt = log.length := Int64.toInt_ofNat_of_lt fits
  have read := read_bytes_inside length fits low inside
  by_cases beyond : 2 ^ 63 ≤ offset.toInt + length.toInt
  · refine iff_of_false ?_ fun held => by omega
    rintro ⟨buf, bytes, size, -⟩
    rw [clamp_wrapped (by omega) beyond] at read
    rw [read] at bytes
    split at bytes
    · cases bytes
    · -- The buffer has the stated length, which goes beyond the end.
      have long : (readAt log offset.toInt.toNat length.toInt.toNat).length = length.toInt.toNat := by
        unfold readAt
        rw [List.length_append, List.length_replicate, List.length_take]
        omega
      rw [← ReadResult.bytes.inj bytes, long] at size
      have high := offset.toInt_lt
      omega
  · have clamped := clamp_in_range (Int64.ofNat log.length) low (by omega) (not_le.mp beyond)
    rw [ending] at clamped
    rw [clamped] at read
    constructor
    · rintro ⟨buf, bytes, -⟩
      refine ⟨not_le.mp beyond, ?_⟩
      rw [read] at bytes
      split at bytes
      · cases bytes
      · omega
    · rintro ⟨-, small⟩
      have within : (min (max length.toInt 0) (log.length - offset.toInt)).toNat ≤
          log.length - offset.toInt.toNat := by omega
      rw [if_neg (by unfold maxAlloc at small ⊢; omega), read_at_within within] at read
      refine ⟨_, read, ?_, List.take_prefix _ _⟩
      rw [List.length_take, List.length_drop]
      omega

/-! Every record of the table. -/

/-- Every offset lies in the log. -/
def Placed (app : App) : Prop :=
  ∀ id row, app.records.get? id = some row → 0 ≤ row.fileOffset.toInt ∧
    row.fileOffset.toInt ≤ app.log.length

theorem step_placed {app next : App} {header : String} {request : Request} (placed : Placed app)
    (taken : step app (header, request) = some next) : Placed next := by
  cases request with
  | showRecord id tenant =>
      cases taken
      exact placed
  | listRecords tenant =>
      cases taken
      exact placed
  | appendRecord request now =>
      obtain ⟨same, fits⟩ := step_append taken
      rcases append_cases app header request now with ⟨idle, _⟩ | ⟨body, value, _, _, _, _, _, stored⟩
      · rw [same, idle]
        exact placed
      · rw [stored] at same
        subst same
        have grown : (store app body value now).log.length = app.log.length + 5 + value.length := by
          show (app.log ++ body.type :: putUint32 (statedLength body value) ++ value).length = _
          rw [List.length_append, List.length_append]
          rfl
        intro id row found
        have start : (Int64.ofNat app.log.length + 5).toInt = app.log.length + 5 := by
          rw [show Int64.ofNat app.log.length + 5 = Int64.ofNat (app.log.length + 5)
            from (Int64.ofNat_add _ _).symm]
          exact Int64.toInt_ofNat_of_lt (by omega)
        change (app.records.set body.id _).get? id = some row at found
        rw [Dict.get_set] at found
        split at found
        · rw [← Option.some.inj found]
          exact ⟨by rw [start]; omega, by rw [start, grown]; omega⟩
        · have held := placed id row found
          exact ⟨held.1, by omega⟩

theorem run_placed {app last : App} {calls : List (String × Request)} (placed : Placed app)
    (ran : run app calls = some last) : Placed last := by
  induction calls generalizing app with
  | nil =>
      cases ran
      exact placed
  | cons call rest ih =>
      obtain ⟨next, taken, ran⟩ := run_cons ran
      exact ih (step_placed placed taken) ran

/-- Whatever was appended to the log before and after a record: its read stays inside the log
exactly where its offset and its stated length add up to an int64 and the bytes fit a slice. -/
theorem feed_reads_within_iff {start last : App} (fresh : start.records = Dict.empty)
    (fits : start.log.length < 2 ^ 63) {calls : List (String × Request)}
    (ran : run start calls = some last) {id : String} {row : RecordRow}
    (found : last.records.get? id = some row) :
    ReadsWithin last.log row.fileOffset row.length ↔ row.fileOffset.toInt + row.length.toInt < 2 ^ 63 ∧
      (row.length.toInt ≤ maxAlloc ∨ last.log.length - row.fileOffset.toInt ≤ maxAlloc) := by
  have placed : Placed start := by
    intro id row held
    rw [fresh] at held
    cases held
  obtain ⟨low, inside⟩ := run_placed placed ran id row found
  exact reads_within_iff ((run_grows ran).2 fits) low inside

theorem checker_record_reads_within : ReadsWithin feedStored.log 5 4 := by
  have ran : run feedStart [("grid", .appendRecord (some checkerRecord) 0)] = some feedStored := by decide
  have found : feedStored.records.get? "f00d" = some ⟨"checker", 2, 5, 4, 0⟩ := by decide
  exact (feed_reads_within_iff rfl (by decide) ran found).mpr ⟨by decide, .inl (by decide)⟩

/-! A client that states the largest length. -/

def longRecord : AppendReq := ⟨"cafe", "public", 2, "00", some 9223372036854775807⟩

theorem largest_length_panics :
    ∃ last row, run feedStart [("", .appendRecord (some longRecord) 0)] = some last ∧
      last.records.get? "cafe" = some row ∧ readBytes last.log row.fileOffset row.length = .panicked ∧
      handleShow last "cafe" "public" = .panicked ∧ ¬ReadsWithin last.log row.fileOffset row.length := by
  have panics : readBytes (store feedStart longRecord [0] 0).log 5 9223372036854775807 = .panicked := by
    decide
  refine ⟨store feedStart longRecord [0] 0, ⟨"public", 2, 5, 9223372036854775807, 0⟩, by decide,
    by decide, panics, by decide, ?_⟩
  rintro ⟨buf, bytes, -⟩
  rw [panics] at bytes
  cases bytes

end KosSim.VaultFeed
