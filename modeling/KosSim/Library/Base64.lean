import Mathlib.Data.List.Basic
import Mathlib.Data.Nat.Basic
import Mathlib.Tactic

/-!
Base64 as the Python standard library has it. `a2b` is the non-strict loop of
binascii.a2b_base64: characters outside the alphabet are skipped, a completed
pad sequence ends the input, and a partial quantum is an error. `urlsafe`
translates `-` and `_` first, so the standard characters stay accepted too.
-/

namespace KosSim.Library.Base64

def sextet (c : Char) : Option Nat :=
  if 'A' ≤ c ∧ c ≤ 'Z' then some (c.toNat - 'A'.toNat)
  else if 'a' ≤ c ∧ c ≤ 'z' then some (c.toNat - 'a'.toNat + 26)
  else if '0' ≤ c ∧ c ≤ '9' then some (c.toNat - '0'.toNat + 52)
  else if c = '+' then some 62
  else if c = '/' then some 63
  else none

def digit (v : Nat) : Char :=
  if v < 26 then Char.ofNat ('A'.toNat + v)
  else if v < 52 then Char.ofNat ('a'.toNat + (v - 26))
  else if v < 62 then Char.ofNat ('0'.toNat + (v - 52))
  else if v = 62 then '+'
  else '/'

def fromUrlsafe (c : Char) : Char := if c = '-' then '+' else if c = '_' then '/' else c

def toUrlsafe (c : Char) : Char := if c = '+' then '-' else if c = '/' then '_' else c

/-- `quad` counts the sextets of the open quantum, `left` holds the bits not yet emitted. -/
def a2b : List Char → Nat → Nat → Nat → Option (List UInt8)
  | [], quad, _, _ => if quad = 0 then some [] else none
  | c :: rest, quad, left, pads =>
      if c = '=' then
        if 2 ≤ quad ∧ 4 ≤ quad + (pads + 1) then some []
        else a2b rest quad left (if 2 ≤ quad then pads + 1 else pads)
      else match sextet c with
        | none => a2b rest quad left pads
        | some v =>
            match quad with
            | 0 => a2b rest 1 v 0
            | 1 => (a2b rest 2 (v % 16) 0).map (UInt8.ofNat (left * 4 + v / 16) :: ·)
            | 2 => (a2b rest 3 (v % 4) 0).map (UInt8.ofNat (left * 16 + v / 4) :: ·)
            | _ => (a2b rest 0 0 0).map (UInt8.ofNat (left * 64 + v) :: ·)

def b64decode (text : List Char) : Option (List UInt8) := a2b text 0 0 0

def urlsafeB64decode (text : List Char) : Option (List UInt8) := b64decode (text.map fromUrlsafe)

def b64encode : List UInt8 → List Char
  | [] => []
  | [a] => [digit (a.toNat / 4), digit (a.toNat % 4 * 16), '=', '=']
  | [a, b] => [digit (a.toNat / 4), digit (a.toNat % 4 * 16 + b.toNat / 16), digit (b.toNat % 16 * 4), '=']
  | a :: b :: c :: rest =>
      digit (a.toNat / 4) :: digit (a.toNat % 4 * 16 + b.toNat / 16) ::
        digit (b.toNat % 16 * 4 + c.toNat / 64) :: digit (c.toNat % 64) :: b64encode rest

def urlsafeB64encode (data : List UInt8) : List Char := (b64encode data).map toUrlsafe

def valid (c : Char) : Bool := (sextet c).isSome

theorem sextet_lt (c : Char) (v : Nat) (found : sextet c = some v) : v < 64 := by
  unfold sextet at found
  split at found
  · next range =>
    have upper : c.toNat ≤ 'Z'.toNat := range.2
    have := Option.some.inj found
    simp only [Char.reduceToNat] at *
    omega
  split at found
  · next range =>
    have upper : c.toNat ≤ 'z'.toNat := range.2
    have := Option.some.inj found
    simp only [Char.reduceToNat] at *
    omega
  split at found
  · next range =>
    have upper : c.toNat ≤ '9'.toNat := range.2
    have := Option.some.inj found
    simp only [Char.reduceToNat] at *
    omega
  split at found
  · have := Option.some.inj found; omega
  split at found
  · have := Option.some.inj found; omega
  · cases found

theorem digit_sextet (c : Char) (v : Nat) (found : sextet c = some v) : digit v = c := by
  have whole (n : Nat) (same : n = c.toNat) : Char.ofNat n = c := by rw [same, Char.ofNat_toNat]
  unfold sextet at found
  split at found
  · next range =>
    have lower : 'A'.toNat ≤ c.toNat := range.1
    have upper : c.toNat ≤ 'Z'.toNat := range.2
    have value := Option.some.inj found
    simp only [Char.reduceToNat] at *
    rw [digit, if_pos (by omega)]
    exact whole _ (by simp only [Char.reduceToNat]; omega)
  split at found
  · next range =>
    have lower : 'a'.toNat ≤ c.toNat := range.1
    have upper : c.toNat ≤ 'z'.toNat := range.2
    have value := Option.some.inj found
    simp only [Char.reduceToNat] at *
    rw [digit, if_neg (by omega), if_pos (by omega)]
    exact whole _ (by simp only [Char.reduceToNat]; omega)
  split at found
  · next range =>
    have lower : '0'.toNat ≤ c.toNat := range.1
    have upper : c.toNat ≤ '9'.toNat := range.2
    have value := Option.some.inj found
    simp only [Char.reduceToNat] at *
    rw [digit, if_neg (by omega), if_neg (by omega), if_pos (by omega)]
    exact whole _ (by simp only [Char.reduceToNat]; omega)
  split at found
  · next same => rw [same, ← Option.some.inj found]; rfl
  split at found
  · next same => rw [same, ← Option.some.inj found]; rfl
  · cases found

/-- Bits the open quantum holds back. -/
def leftover : Nat → Nat
  | 0 => 0
  | 1 => 6
  | 2 => 4
  | _ => 2

/-- Every emitted byte is paid for by sextets: padding and skipped characters give nothing. -/
theorem a2b_capacity (text : List Char) (quad left pads : Nat) (data : List UInt8)
    (decoded : a2b text quad left pads = some data) :
    8 * data.length ≤ leftover quad + 6 * text.countP valid := by
  induction text generalizing quad left pads data with
  | nil =>
      simp only [a2b] at decoded
      split at decoded
      · cases decoded; simp
      · cases decoded
  | cons c rest ih =>
      simp only [a2b] at decoded
      have grows : rest.countP valid ≤ (c :: rest).countP valid := by
        rw [List.countP_cons]; omega
      split at decoded
      · split at decoded
        · cases decoded; simp
        · exact (ih _ _ _ _ decoded).trans (by omega)
      · split at decoded
        · exact (ih _ _ _ _ decoded).trans (by omega)
        · next v found =>
          have counted : (c :: rest).countP valid = rest.countP valid + 1 := by
            simp [valid, found]
          split at decoded
          · have tail := ih _ _ _ _ decoded
            simp only [leftover] at tail ⊢
            omega
          all_goals
            obtain ⟨shorter, inner, same⟩ := Option.map_eq_some_iff.mp decoded
            have tail := ih _ _ _ _ inner
            rw [← same, List.length_cons]
            simp only [leftover] at tail ⊢
            omega

/-- A full-length body leaves no room for a character outside the alphabet. -/
theorem full_body_valid (text : List Char) (data : List UInt8) (decoded : b64decode text = some data)
    (full : 6 * text.length ≤ 8 * data.length) : ∀ c ∈ text, valid c = true := by
  have capacity := a2b_capacity text 0 0 0 data decoded
  have bounded := List.countP_le_length (p := valid) (l := text)
  apply List.countP_eq_length.mp
  simp only [leftover] at capacity
  omega

def leftBound : Nat → Nat
  | 0 => 1
  | 1 => 64
  | 2 => 16
  | _ => 4

theorem byte_injective (m n : Nat) (mBound : m < 256) (nBound : n < 256)
    (same : UInt8.ofNat m = UInt8.ofNat n) : m = n := by
  have values := congrArg UInt8.toNat same
  rw [UInt8.toNat_ofNat', UInt8.toNat_ofNat'] at values
  omega

theorem valid_step (c : Char) (rest : List Char) (quad left pads v : Nat) (found : sextet c = some v) :
    a2b (c :: rest) quad left pads =
      match quad with
      | 0 => a2b rest 1 v 0
      | 1 => (a2b rest 2 (v % 16) 0).map (UInt8.ofNat (left * 4 + v / 16) :: ·)
      | 2 => (a2b rest 3 (v % 4) 0).map (UInt8.ofNat (left * 16 + v / 4) :: ·)
      | _ => (a2b rest 0 0 0).map (UInt8.ofNat (left * 64 + v) :: ·) := by
  have outside : sextet '=' = none := by decide
  have notPad : c ≠ '=' := by
    rintro rfl
    rw [outside] at found
    cases found
  rw [a2b, if_neg notPad, found]

theorem emitted_cons {first second : Option (List UInt8)} {a b : UInt8} {data : List UInt8}
    (left : first.map (a :: ·) = some data) (right : second.map (b :: ·) = some data) :
    a = b ∧ ∃ tail, first = some tail ∧ second = some tail := by
  obtain ⟨firstTail, firstSome, firstData⟩ := Option.map_eq_some_iff.mp left
  obtain ⟨secondTail, secondSome, secondData⟩ := Option.map_eq_some_iff.mp right
  obtain ⟨head, tail⟩ := List.cons.inj (firstData.trans secondData.symm)
  exact ⟨head, firstTail, firstSome, by rw [secondSome, tail]⟩

/-- Two texts over the alphabet that decode alike carry the same sextets. The
induction walks both texts at once; the held bits are part of what agrees. -/
theorem a2b_injective (first second : List Char) (quad firstLeft secondLeft firstPads secondPads : Nat)
    (data : List UInt8) (sameLength : first.length = second.length) (range : quad < 4)
    (firstValid : ∀ c ∈ first, valid c = true) (secondValid : ∀ c ∈ second, valid c = true)
    (firstBound : firstLeft < leftBound quad) (secondBound : secondLeft < leftBound quad)
    (firstDecoded : a2b first quad firstLeft firstPads = some data)
    (secondDecoded : a2b second quad secondLeft secondPads = some data) :
    firstLeft = secondLeft ∧ first.map sextet = second.map sextet := by
  induction first generalizing second quad firstLeft secondLeft firstPads secondPads data with
  | nil =>
      have empty := List.length_eq_zero_iff.mp sameLength.symm
      subst empty
      simp only [a2b] at firstDecoded
      split at firstDecoded
      · next start =>
        subst start
        simp only [leftBound] at firstBound secondBound
        exact ⟨by omega, rfl⟩
      · cases firstDecoded
  | cons c rest ih =>
      obtain ⟨d, others, rfl⟩ := List.exists_cons_of_length_eq_add_one sameLength.symm
      obtain ⟨v, foundV⟩ := Option.isSome_iff_exists.mp (firstValid c List.mem_cons_self)
      obtain ⟨w, foundW⟩ := Option.isSome_iff_exists.mp (secondValid d List.mem_cons_self)
      have vBound := sextet_lt c v foundV
      have wBound := sextet_lt d w foundW
      have restLength : rest.length = others.length := by simpa using sameLength
      have restValid : ∀ x ∈ rest, valid x = true :=
        fun x member => firstValid x (List.mem_cons_of_mem c member)
      have othersValid : ∀ x ∈ others, valid x = true :=
        fun x member => secondValid x (List.mem_cons_of_mem d member)
      rw [valid_step c rest quad firstLeft firstPads v foundV] at firstDecoded
      rw [valid_step d others quad secondLeft secondPads w foundW] at secondDecoded
      simp only [List.map_cons, foundV, foundW, List.cons.injEq, Option.some.injEq]
      match quad, range with
      | 0, _ =>
          simp only [leftBound] at firstBound secondBound
          obtain ⟨same, tails⟩ := ih others 1 v w 0 0 data restLength (by omega) restValid othersValid
            (by simpa [leftBound] using vBound)
            (by simpa [leftBound] using wBound) firstDecoded secondDecoded
          exact ⟨by omega, same, tails⟩
      | 1, _ =>
          obtain ⟨head, tail, firstTail, secondTail⟩ := emitted_cons firstDecoded secondDecoded
          simp only [leftBound] at firstBound secondBound
          have bits := byte_injective _ _ (by omega) (by omega) head
          obtain ⟨same, tails⟩ := ih others 2 (v % 16) (w % 16) 0 0 tail restLength (by omega) restValid
            othersValid (by simp only [leftBound]; omega)
            (by simp only [leftBound]; omega) firstTail secondTail
          exact ⟨by omega, by omega, tails⟩
      | 2, _ =>
          obtain ⟨head, tail, firstTail, secondTail⟩ := emitted_cons firstDecoded secondDecoded
          simp only [leftBound] at firstBound secondBound
          have bits := byte_injective _ _ (by omega) (by omega) head
          obtain ⟨same, tails⟩ := ih others 3 (v % 4) (w % 4) 0 0 tail restLength (by omega) restValid
            othersValid (by simp only [leftBound]; omega)
            (by simp only [leftBound]; omega) firstTail secondTail
          exact ⟨by omega, by omega, tails⟩
      | 3, _ =>
          obtain ⟨head, tail, firstTail, secondTail⟩ := emitted_cons firstDecoded secondDecoded
          simp only [leftBound] at firstBound secondBound
          have bits := byte_injective _ _ (by omega) (by omega) head
          obtain ⟨_, tails⟩ := ih others 0 0 0 0 0 tail restLength (by omega) restValid othersValid
            (by simp [leftBound]) (by simp [leftBound]) firstTail secondTail
          exact ⟨by omega, by omega, tails⟩

theorem b64decode_injective (first second : List Char) (data : List UInt8)
    (sameLength : first.length = second.length) (full : 6 * first.length ≤ 8 * data.length)
    (firstDecoded : b64decode first = some data) (secondDecoded : b64decode second = some data) :
    first = second := by
  have firstValid := full_body_valid first data firstDecoded full
  have secondValid := full_body_valid second data secondDecoded (sameLength ▸ full)
  have sextets := (a2b_injective first second 0 0 0 0 0 data sameLength (by omega) firstValid secondValid
    (by simp [leftBound]) (by simp [leftBound]) firstDecoded secondDecoded).2
  have recover (text : List Char) (inside : ∀ c ∈ text, valid c = true) :
      (text.map sextet).map (fun v => digit (v.getD 0)) = text := by
    have pointwise : ∀ c ∈ text, ((fun v : Option Nat => digit (v.getD 0)) ∘ sextet) c = id c := by
      intro c member
      obtain ⟨v, found⟩ := Option.isSome_iff_exists.mp (inside c member)
      simp [found, digit_sextet c v found]
    rw [List.map_map, List.map_congr_left pointwise, List.map_id]
  rw [← recover first firstValid, sextets, recover second secondValid]

/-! What is encoded decodes to itself. -/

theorem sextet_digit (v : Nat) (bound : v < 64) : sextet (digit v) = some v := by
  have all : ∀ v < 64, sextet (digit v) = some v := by decide
  exact all v bound

section Digits
variable (v : Nat) (bound : v < 64) (rest : List Char) (left pads : Nat)
include bound

theorem first_digit : a2b (digit v :: rest) 0 left pads = a2b rest 1 v 0 :=
  valid_step (digit v) rest 0 left pads v (sextet_digit v bound)

theorem second_digit : a2b (digit v :: rest) 1 left pads =
    (a2b rest 2 (v % 16) 0).map (UInt8.ofNat (left * 4 + v / 16) :: ·) :=
  valid_step (digit v) rest 1 left pads v (sextet_digit v bound)

theorem third_digit : a2b (digit v :: rest) 2 left pads =
    (a2b rest 3 (v % 4) 0).map (UInt8.ofNat (left * 16 + v / 4) :: ·) :=
  valid_step (digit v) rest 2 left pads v (sextet_digit v bound)

theorem fourth_digit : a2b (digit v :: rest) 3 left pads =
    (a2b rest 0 0 0).map (UInt8.ofNat (left * 64 + v) :: ·) :=
  valid_step (digit v) rest 3 left pads v (sextet_digit v bound)

end Digits

theorem byte_of (byte : UInt8) (n : Nat) (same : n = byte.toNat) : UInt8.ofNat n = byte := by
  rw [same, UInt8.ofNat_toNat]

/-- The induction follows the groups of three bytes; a short last group ends in padding. -/
theorem b64decode_encode (data : List UInt8) : b64decode (b64encode data) = some data := by
  unfold b64decode
  induction data using b64encode.induct with
  | case1 => rfl
  | case2 a =>
      have boundA := a.toNat_lt
      rw [b64encode, first_digit _ (by omega), second_digit _ (by omega), byte_of a _ (by omega)]
      rfl
  | case3 a b =>
      have boundA := a.toNat_lt
      have boundB := b.toNat_lt
      rw [b64encode, first_digit _ (by omega), second_digit _ (by omega), third_digit _ (by omega),
        byte_of a _ (by omega), byte_of b _ (by omega)]
      rfl
  | case4 a b c rest ih =>
      have boundA := a.toNat_lt
      have boundB := b.toNat_lt
      have boundC := c.toNat_lt
      rw [b64encode, first_digit _ (by omega), second_digit _ (by omega), third_digit _ (by omega),
        fourth_digit _ (by omega), byte_of a _ (by omega), byte_of b _ (by omega),
        byte_of c _ (by omega), ih]
      rfl

theorem from_to_urlsafe (c : Char) : fromUrlsafe (toUrlsafe c) = fromUrlsafe c := by
  unfold toUrlsafe
  split
  · next same => rw [same]; rfl
  split
  · next same => rw [same]; rfl
  rfl

def plain (c : Char) : Bool := c != '-' && c != '_' && c.toNat < 128

theorem plain_digit (v : Nat) : plain (digit v) = true := by
  by_cases bound : v < 64
  · have all : ∀ v < 64, plain (digit v) = true := by decide
    exact all v bound
  · rw [digit, if_neg (by omega), if_neg (by omega), if_neg (by omega), if_neg (by omega)]
    rfl

theorem plain_encode (data : List UInt8) : ∀ c ∈ b64encode data, plain c = true := by
  induction data using b64encode.induct with
  | case1 => exact fun c member => absurd member List.not_mem_nil
  | case2 a => simp [b64encode, plain_digit]; decide
  | case3 a b => simp [b64encode, plain_digit]; decide
  | case4 a b c rest ih =>
      intro d member
      simp only [b64encode, List.mem_cons] at member
      rcases member with rfl | rfl | rfl | rfl | later
      · exact plain_digit _
      · exact plain_digit _
      · exact plain_digit _
      · exact plain_digit _
      · exact ih d later

theorem urlsafe_decode_encode (data : List UInt8) :
    urlsafeB64decode (urlsafeB64encode data) = some data := by
  have back : (urlsafeB64encode data).map fromUrlsafe = b64encode data := by
    rw [urlsafeB64encode, List.map_map]
    refine (List.map_congr_left fun c member => ?_).trans (List.map_id _)
    have outside := plain_encode data c member
    simp only [plain, Bool.and_eq_true, bne_iff_ne] at outside
    rw [Function.comp_apply, from_to_urlsafe, fromUrlsafe, if_neg outside.1.1, if_neg outside.1.2, id]
  rw [urlsafeB64decode, back, b64decode_encode]

/-- Whole groups are written without padding. -/
theorem encode_whole (data : List UInt8) (whole : 3 ∣ data.length) :
    (b64encode data).length = 4 * (data.length / 3) ∧ ∀ c ∈ b64encode data, ∃ v, c = digit v := by
  induction data using b64encode.induct with
  | case1 => exact ⟨rfl, fun c member => absurd member List.not_mem_nil⟩
  | case2 a => simp at whole
  | case3 a b => simp at whole
  | case4 a b c rest ih =>
      have tail : 3 ∣ rest.length := by
        simp only [List.length_cons] at whole
        omega
      obtain ⟨length, digits⟩ := ih tail
      constructor
      · simp only [b64encode, List.length_cons, length]
        omega
      · intro d member
        simp only [b64encode, List.mem_cons] at member
        rcases member with rfl | rfl | rfl | rfl | later
        · exact ⟨_, rfl⟩
        · exact ⟨_, rfl⟩
        · exact ⟨_, rfl⟩
        · exact ⟨_, rfl⟩
        · exact digits d later

end KosSim.Library.Base64
