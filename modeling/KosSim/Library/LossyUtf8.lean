import KosSim.Library.Hex
import Mathlib.Algebra.Group.Nat.Defs

/-!
Bytes as text where they need not be UTF-8, as Rust's from_utf8_lossy has it: each longest front of
a sequence that breaks off becomes one replacement character. A break swallows no ASCII byte.
-/

namespace KosSim.Library

def replacementChar : Char := Char.ofNat 0xfffd

def continues (byte : UInt8) : Bool := byte.toNat / 64 = 2

/-- The rest of a character that needs some more bytes, and what is behind it or behind the break. -/
def charTail : Nat → Nat → List UInt8 → Option Char × List UInt8
  | 0, value, rest => (some (Char.ofNat value), rest)
  | _ + 1, _, [] => (none, [])
  | more + 1, value, byte :: rest =>
      if continues byte then charTail more (value * 64 + byte.toNat % 64) rest else (none, byte :: rest)

/-- Neither too long a form, nor a surrogate, nor above the last character. -/
def secondFits (lead second : Nat) : Bool :=
  if lead = 0xe0 then 0xa0 ≤ second && second ≤ 0xbf
  else if lead = 0xed then 0x80 ≤ second && second ≤ 0x9f
  else if lead = 0xf0 then 0x90 ≤ second && second ≤ 0xbf
  else if lead = 0xf4 then 0x80 ≤ second && second ≤ 0x8f
  else 0x80 ≤ second && second ≤ 0xbf

def longTail (more lead value : Nat) (rest : List UInt8) : Option Char × List UInt8 :=
  match rest with
  | [] => (none, [])
  | second :: _ => if secondFits lead second.toNat then charTail more value rest else (none, rest)

def charAt (byte : UInt8) (rest : List UInt8) : Option Char × List UInt8 :=
  let n := byte.toNat
  if n < 0x80 then (some (Char.ofNat n), rest)
  else if 0xc2 ≤ n ∧ n ≤ 0xdf then charTail 1 (n - 0xc0) rest
  else if 0xe0 ≤ n ∧ n ≤ 0xef then longTail 2 n (n - 0xe0) rest
  else if 0xf0 ≤ n ∧ n ≤ 0xf4 then longTail 3 n (n - 0xf0) rest
  else (none, rest)

def lossyUpTo : Nat → List UInt8 → List Char
  | 0, _ => []
  | _ + 1, [] => []
  | fuel + 1, byte :: rest =>
      (charAt byte rest).1.getD replacementChar :: lossyUpTo fuel (charAt byte rest).2

def lossy (bytes : List UInt8) : List Char := lossyUpTo bytes.length bytes

theorem char_tail_shorter (more value : Nat) (rest : List UInt8) :
    (charTail more value rest).2.length ≤ rest.length := by
  induction more generalizing value rest with
  | zero => exact Nat.le_refl _
  | succ more ih =>
      cases rest with
      | nil => exact Nat.le_refl _
      | cons byte later =>
          rw [charTail]
          split
          · exact Nat.le_trans (ih _ later) (Nat.le_succ _)
          · exact Nat.le_refl _

theorem long_tail_shorter (more lead value : Nat) (rest : List UInt8) :
    (longTail more lead value rest).2.length ≤ rest.length := by
  unfold longTail
  split
  · exact Nat.le_refl _
  · split
    · exact char_tail_shorter more value _
    · exact Nat.le_refl _

theorem char_at_shorter (byte : UInt8) (rest : List UInt8) : (charAt byte rest).2.length ≤ rest.length := by
  unfold charAt
  dsimp only
  split
  · exact Nat.le_refl _
  split
  · exact char_tail_shorter _ _ rest
  split
  · exact long_tail_shorter _ _ _ rest
  split
  · exact long_tail_shorter _ _ _ rest
  · exact Nat.le_refl _

theorem lossy_fuel (bytes : List UInt8) {fuel : Nat} (enough : bytes.length ≤ fuel) :
    lossyUpTo fuel bytes = lossy bytes := by
  have general (one other : Nat) (bytes : List UInt8) (oneEnough : bytes.length ≤ one)
      (otherEnough : bytes.length ≤ other) : lossyUpTo one bytes = lossyUpTo other bytes := by
    induction one generalizing other bytes with
    | zero =>
        rw [List.eq_nil_of_length_eq_zero (Nat.le_zero.mp oneEnough)]
        cases other <;> rfl
    | succ one ih =>
        cases bytes with
        | nil => cases other <;> rfl
        | cons byte rest =>
            obtain ⟨other, rfl⟩ : ∃ less, other = less + 1 :=
              ⟨other - 1, by rw [List.length_cons] at otherEnough; omega⟩
            have shorter := char_at_shorter byte rest
            rw [List.length_cons] at oneEnough otherEnough
            rw [lossyUpTo, lossyUpTo, ih other _ (by omega) (by omega)]
  exact general fuel bytes.length bytes enough (Nat.le_refl _)

theorem lossy_cons (byte : UInt8) (rest : List UInt8) :
    lossy (byte :: rest) = (charAt byte rest).1.getD replacementChar :: lossy (charAt byte rest).2 := by
  rw [lossy, List.length_cons, lossyUpTo, lossy_fuel _ (char_at_shorter byte rest)]

/-! ASCII. -/

section Ascii
variable {mark : UInt8} (ascii : mark < 128)
include ascii

theorem mark_breaks : mark.toNat < 128 := UInt8.lt_iff_toNat_lt.mp ascii

theorem char_tail_mark (more value : Nat) (front rest : List UInt8) :
    charTail more value (front ++ mark :: rest) =
      ((charTail more value front).1, (charTail more value front).2 ++ mark :: rest) := by
  have small := mark_breaks ascii
  induction more generalizing value front with
  | zero => rfl
  | succ more ih =>
      cases front with
      | nil =>
          have broken : continues mark = false := decide_eq_false (by omega)
          have stops : charTail (more + 1) value (mark :: rest) = (none, mark :: rest) := by
            rw [charTail, broken]
            rfl
          exact stops
      | cons byte later =>
          rw [List.cons_append, charTail, charTail]
          split
          · exact ih _ later
          · rfl

theorem long_tail_mark (more lead value : Nat) (front rest : List UInt8) :
    longTail more lead value (front ++ mark :: rest) =
      ((longTail more lead value front).1, (longTail more lead value front).2 ++ mark :: rest) := by
  have small := mark_breaks ascii
  cases front with
  | nil =>
      have unfit : secondFits lead mark.toNat = false := by
        unfold secondFits
        split_ifs <;> simp only [Bool.and_eq_false_imp, decide_eq_true_eq,
          decide_eq_false_iff_not] <;> omega
      have stops : longTail more lead value (mark :: rest) = (none, mark :: rest) := by
        rw [longTail]
        exact if_neg (ne_true_of_eq_false unfit)
      exact stops
  | cons second later =>
      rw [List.cons_append, longTail, longTail]
      split
      · exact char_tail_mark ascii more value (second :: later) rest
      · rfl

theorem char_at_mark (byte : UInt8) (front rest : List UInt8) : charAt byte (front ++ mark :: rest) =
    ((charAt byte front).1, (charAt byte front).2 ++ mark :: rest) := by
  unfold charAt
  dsimp only
  split
  · rfl
  split
  · exact char_tail_mark ascii _ _ front rest
  split
  · exact long_tail_mark ascii _ _ _ front rest
  split
  · exact long_tail_mark ascii _ _ _ front rest
  · rfl

/-- An ASCII byte stands for its character wherever it is, and the text falls apart there. -/
theorem lossy_mark (front rest : List UInt8) :
    lossy (front ++ mark :: rest) = lossy front ++ Char.ofNat mark.toNat :: lossy rest := by
  induction size : front.length using Nat.strongRecOn generalizing front with
  | ind n ih =>
      cases front with
      | nil =>
          have here : charAt mark rest = (some (Char.ofNat mark.toNat), rest) := if_pos (mark_breaks ascii)
          rw [List.nil_append, lossy_cons, here]
          rfl
      | cons byte later =>
          have shorter := char_at_shorter byte later
          rw [List.length_cons] at size
          rw [List.cons_append, lossy_cons, char_at_mark ascii, lossy_cons,
            ih (charAt byte later).2.length (by omega) _ rfl]
          rfl

end Ascii

/-! No ASCII character comes from elsewhere. -/

theorem char_tail_value {more value : Nat} {rest : List UInt8} {c : Char}
    (found : (charTail more value rest).1 = some c) :
    ∃ low < 64 ^ more, c = Char.ofNat (value * 64 ^ more + low) := by
  induction more generalizing value rest with
  | zero =>
      refine ⟨0, by decide, ?_⟩
      rw [Nat.pow_zero, Nat.mul_one]
      exact (Option.some.inj found).symm
  | succ more ih =>
      cases rest with
      | nil => cases found
      | cons byte later =>
          rw [charTail] at found
          split at found
          · obtain ⟨low, small, same⟩ := ih found
            have digit := Nat.mod_lt byte.toNat (show 0 < 64 by decide)
            refine ⟨byte.toNat % 64 * 64 ^ more + low, ?_, ?_⟩
            · have most : byte.toNat % 64 * 64 ^ more ≤ 63 * 64 ^ more := Nat.mul_le_mul_right _ (by omega)
              rw [Nat.pow_succ]
              omega
            · rw [same, Nat.pow_succ]
              congr 1
              rw [Nat.add_mul, Nat.mul_assoc, Nat.mul_comm 64 (64 ^ more), Nat.add_assoc]
          · cases found

theorem of_nat_value {n : Nat} (valid : n < 0xd800 ∨ 0xdfff < n ∧ n < 0x110000) :
    (Char.ofNat n).toNat = n := by
  have legal : n.isValidChar := valid
  rw [Char.ofNat, dif_pos legal]
  rfl

theorem long_tail_value {more lead value : Nat} {rest : List UInt8} {c : Char}
    (found : (longTail (more + 1) lead value rest).1 = some c) :
    ∃ second < 256, secondFits lead second = true ∧
      ∃ low < 64 ^ more, c = Char.ofNat ((value * 64 + second % 64) * 64 ^ more + low) := by
  cases rest with
  | nil => cases found
  | cons second later =>
      rw [longTail] at found
      split at found
      · next fits =>
          rw [charTail] at found
          split at found
          · exact ⟨second.toNat, second.toNat_lt, fits, char_tail_value found⟩
          · cases found
      · cases found

theorem second_range {lead second : Nat} (fits : secondFits lead second = true) :
    0x80 ≤ second ∧ second ≤ 0xbf ∧
      (lead = 0xe0 → 0xa0 ≤ second) ∧ (lead = 0xed → second ≤ 0x9f) ∧ (lead = 0xf0 → 0x90 ≤ second) ∧
        (lead = 0xf4 → second ≤ 0x8f) := by
  unfold secondFits at fits
  split_ifs at fits <;> simp only [Bool.and_eq_true, decide_eq_true_eq] at fits <;> omega

theorem char_at_high {byte : UInt8} {rest : List UInt8} {c : Char} (above : 0x80 ≤ byte.toNat)
    (found : (charAt byte rest).1 = some c) : 128 ≤ c.toNat := by
  unfold charAt at found
  dsimp only at found
  rw [if_neg (by omega)] at found
  split at found
  · obtain ⟨low, small, rfl⟩ := char_tail_value found
    rw [of_nat_value (by omega)]
    omega
  split at found
  · obtain ⟨second, -, fits, low, small, rfl⟩ := long_tail_value found
    have range := second_range fits
    rw [of_nat_value (by omega)]
    omega
  split at found
  · obtain ⟨second, -, fits, low, small, rfl⟩ := long_tail_value found
    have range := second_range fits
    rw [of_nat_value (by omega)]
    omega
  · cases found

theorem char_tail_rest (more value : Nat) (rest : List UInt8) : (charTail more value rest).2 <:+ rest := by
  induction more generalizing value rest with
  | zero => exact List.suffix_refl _
  | succ more ih =>
      cases rest with
      | nil => exact List.suffix_refl _
      | cons byte later =>
          rw [charTail]
          split
          · exact (ih _ later).trans (List.suffix_cons byte later)
          · exact List.suffix_refl _

theorem char_at_rest (byte : UInt8) (rest : List UInt8) : (charAt byte rest).2 <:+ rest := by
  have long (more lead value : Nat) : (longTail more lead value rest).2 <:+ rest := by
    unfold longTail
    split
    · exact List.suffix_refl _
    · split
      · exact char_tail_rest more value _
      · exact List.suffix_refl _
  unfold charAt
  dsimp only
  split
  · exact List.suffix_refl _
  split
  · exact char_tail_rest _ _ rest
  split
  · exact long _ _ _
  split
  · exact long _ _ _
  · exact List.suffix_refl _

theorem lossy_from {bytes : List UInt8} {c : Char} (member : c ∈ lossy bytes) (ascii : c.toNat < 128) :
    ∃ byte ∈ bytes, byte.toNat = c.toNat := by
  induction size : bytes.length using Nat.strongRecOn generalizing bytes with
  | ind n ih =>
      cases bytes with
      | nil => cases member
      | cons byte rest =>
          rw [List.length_cons] at size
          rw [lossy_cons, List.mem_cons] at member
          rcases member with here | later
          · by_cases small : byte.toNat < 128
            · have read : charAt byte rest = (some (Char.ofNat byte.toNat), rest) := if_pos small
              rw [read] at here
              refine ⟨byte, List.mem_cons_self, ?_⟩
              rw [here]
              exact (of_nat_value (by omega)).symm
            · cases found : (charAt byte rest).1 with
              | none =>
                  rw [found] at here
                  rw [here] at ascii
                  exact absurd ascii (by decide)
              | some d =>
                  rw [found] at here
                  have high := char_at_high (Nat.le_of_not_lt small) found
                  rw [here] at ascii
                  exact absurd ascii (Nat.not_lt.mpr high)
          · have shorter := char_at_shorter byte rest
            obtain ⟨other, listed, same⟩ := ih _ (by omega) later rfl
            exact ⟨other, List.mem_cons_of_mem _ ((char_at_rest byte rest).subset listed), same⟩

end KosSim.Library
