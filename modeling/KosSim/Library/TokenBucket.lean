import Mathlib.Algebra.Order.Field.Basic
import Mathlib.Tactic.Linarith
import Mathlib.Tactic.Ring

/-!
A token bucket over an ordered field. What it holds grows with time up to the capacity, and a call takes one
token or is turned away. Every window is charged against what the bucket can hold and what flows in.
-/

namespace KosSim.Library

variable {K : Type} [Field K] [LinearOrder K] [IsStrictOrderedRing K]

structure TokenBucket (K : Type) [Field K] [LinearOrder K] where
  capacity : K
  rate : K
  room : 1 ≤ capacity
  flows : 0 < rate

/-- The tokens left at a time. -/
structure Level (K : Type) where
  tokens : K
  time : K

namespace TokenBucket
variable (bucket : TokenBucket K)

def filled (level : Level K) (now : K) : K :=
  min bucket.capacity (level.tokens + max 0 (now - level.time) * bucket.rate)

def draw (level : Level K) (now : K) : Level K × Bool :=
  if bucket.filled level now < 1 then (⟨bucket.filled level now, now⟩, false)
  else (⟨bucket.filled level now - 1, now⟩, true)

/-- Each call with its answer. -/
def drawAll : Level K → List K → List (K × Bool)
  | _, [] => []
  | level, now :: later => (now, (bucket.draw level now).2) :: drawAll (bucket.draw level now).1 later

def Within (level : Level K) : Prop := 0 ≤ level.tokens ∧ level.tokens ≤ bucket.capacity

theorem filled_within {level : Level K} (within : bucket.Within level) (now : K) :
    0 ≤ bucket.filled level now ∧ bucket.filled level now ≤ bucket.capacity := by
  have inflow : 0 ≤ max 0 (now - level.time) * bucket.rate := mul_nonneg (le_max_left _ _) bucket.flows.le
  refine ⟨le_min ?_ ?_, min_le_left _ _⟩
  · exact zero_le_one.trans bucket.room
  · exact add_nonneg within.1 inflow

theorem draw_within {level : Level K} (within : bucket.Within level) (now : K) :
    bucket.Within (bucket.draw level now).1 := by
  obtain ⟨low, high⟩ := bucket.filled_within within now
  unfold draw
  split
  · exact ⟨low, high⟩
  · next enough =>
    show 0 ≤ bucket.filled level now - 1 ∧ bucket.filled level now - 1 ≤ bucket.capacity
    have whole := not_lt.mp enough
    exact ⟨by linarith, by linarith⟩

omit [IsStrictOrderedRing K] in
/-- A call costs a token exactly where it is accepted. -/
theorem draw_tokens (level : Level K) (now : K) :
    (bucket.draw level now).1.tokens = bucket.filled level now - if (bucket.draw level now).2 then 1
      else 0 := by
  unfold draw
  split
  · exact (sub_zero _).symm
  · rfl

omit [IsStrictOrderedRing K] in
@[simp] theorem draw_time (level : Level K) (now : K) : (bucket.draw level now).1.time = now := by
  unfold draw
  split
  · rfl
  · rfl

theorem draw_cost {level : Level K} {now : K} (since : level.time ≤ now) :
    (bucket.draw level now).1.tokens + (if (bucket.draw level now).2 then 1 else 0) ≤
      level.tokens + (now - level.time) * bucket.rate := by
  rw [draw_tokens, sub_add_cancel, filled, max_eq_right (sub_nonneg.mpr since)]
  exact min_le_right _ _

/-! Windows. -/

omit [IsStrictOrderedRing K] in
theorem draw_all_times (level : Level K) (calls : List K) :
    (bucket.drawAll level calls).map Prod.fst = calls := by
  induction calls generalizing level with
  | nil => rfl
  | cons now later ih => rw [drawAll, List.map_cons, ih]

omit [IsStrictOrderedRing K] in
theorem none_beyond (level : Level K) {calls : List K} {stop : K} (beyond : ∀ now ∈ calls, stop < now)
    (counted : K × Bool → Bool) (inTime : ∀ call, counted call = true → call.1 ≤ stop) :
    (bucket.drawAll level calls).countP counted = 0 := by
  rw [List.countP_eq_zero]
  intro call member held
  have listed : call.1 ∈ calls := by
    rw [← bucket.draw_all_times level calls]
    exact List.mem_map_of_mem member
  exact absurd (inTime call held) (not_le.mpr (beyond call.1 listed))

/-- The accepted calls up to a time are paid from the tokens held and the inflow until then. -/
theorem accepted_until {level : Level K} (within : bucket.Within level) {calls : List K}
    (ordered : (level.time :: calls).Pairwise (· ≤ ·)) {stop : K} (start : level.time ≤ stop) :
    ((bucket.drawAll level calls).countP (fun call => call.2 && decide (call.1 ≤ stop)) : K) ≤
      level.tokens + (stop - level.time) * bucket.rate := by
  have inflow : 0 ≤ (stop - level.time) * bucket.rate := mul_nonneg (sub_nonneg.mpr start) bucket.flows.le
  induction calls generalizing level with
  | nil =>
      rw [drawAll, List.countP_nil, Nat.cast_zero]
      exact add_nonneg within.1 inflow
  | cons now later ih =>
      obtain ⟨first, rest⟩ := List.pairwise_cons.mp ordered
      have since := first now List.mem_cons_self
      -- A call behind the stop ends the count, since the calls are in order.
      by_cases inside : now ≤ stop
      · have paid := bucket.draw_cost since
        have more : 0 ≤ (stop - now) * bucket.rate := mul_nonneg (sub_nonneg.mpr inside) bucket.flows.le
        have tail := ih (bucket.draw_within within now) (by rwa [draw_time]) (by rwa [draw_time])
          (by rwa [draw_time])
        rw [draw_time] at tail
        rw [drawAll, List.countP_cons, decide_eq_true inside, Bool.and_true]
        push_cast
        linarith
      · have later' : ∀ time ∈ now :: later, stop < time := by
          intro time member
          rcases List.mem_cons.mp member with rfl | behind
          · exact not_le.mp inside
          · exact (not_le.mp inside).trans_le ((List.pairwise_cons.mp rest).1 time behind)
        rw [bucket.none_beyond level later' _ fun call held =>
          of_decide_eq_true (Bool.and_eq_true_iff.mp held).2, Nat.cast_zero]
        exact add_nonneg within.1 inflow

/-- Any window is paid from a full bucket and the inflow during the window. -/
theorem accepted_within {level : Level K} (within : bucket.Within level) {calls : List K}
    (ordered : calls.Pairwise (· ≤ ·)) (start : K) {width : K} (wide : 0 ≤ width) :
    ((bucket.drawAll level calls).countP
      (fun call => call.2 && decide (start ≤ call.1 ∧ call.1 ≤ start + width)) : K) ≤
      bucket.capacity + width * bucket.rate := by
  have inflow : 0 ≤ width * bucket.rate := mul_nonneg wide bucket.flows.le
  have empty : (0 : K) ≤ bucket.capacity + width * bucket.rate :=
    add_nonneg (zero_le_one.trans bucket.room) inflow
  induction calls generalizing level with
  | nil =>
      rw [drawAll, List.countP_nil, Nat.cast_zero]
      exact empty
  | cons now later ih =>
      obtain ⟨first, rest⟩ := List.pairwise_cons.mp ordered
      -- Calls before the window only change what the bucket holds.
      by_cases early : now < start
      · rw [drawAll, List.countP_cons, decide_eq_false fun both => absurd both.1 (not_le.mpr early),
          Bool.and_false]
        exact ih (bucket.draw_within within now) rest
      by_cases late : start + width < now
      · have beyond : ∀ time ∈ now :: later, start + width < time := by
          intro time member
          rcases List.mem_cons.mp member with rfl | behind
          · exact late
          · exact late.trans_le (first time behind)
        rw [bucket.none_beyond level beyond _ fun call held =>
          (of_decide_eq_true (Bool.and_eq_true_iff.mp held).2).2, Nat.cast_zero]
        exact empty
      · -- The first call of the window: from here on the tokens pay.
        have high := (bucket.filled_within within now).2
        have charge := bucket.draw_tokens level now
        have reaches : (bucket.draw level now).1.time ≤ start + width := by
          rw [draw_time]
          exact not_lt.mp late
        have tail := bucket.accepted_until (bucket.draw_within within now) (by rwa [draw_time]) reaches
        rw [draw_time] at tail
        have shorter : (start + width - now) * bucket.rate ≤ width * bucket.rate :=
          mul_le_mul_of_nonneg_right (by linarith) bucket.flows.le
        have fewer : ((bucket.drawAll (bucket.draw level now).1 later).countP
            (fun call => call.2 && decide (start ≤ call.1 ∧ call.1 ≤ start + width)) : K) ≤
            (bucket.drawAll (bucket.draw level now).1 later).countP fun call => call.2 &&
            decide (call.1 ≤ start + width) := by
          refine Nat.cast_le.mpr (List.countP_mono_left fun call _ held => ?_)
          rw [Bool.and_eq_true, decide_eq_true_eq] at held ⊢
          exact ⟨held.1, held.2.2⟩
        rw [drawAll, List.countP_cons, decide_eq_true ⟨not_lt.mp early, not_lt.mp late⟩, Bool.and_true]
        push_cast
        linarith

/-! Waiting. -/

/-- Who waits until the missing part of a token has flowed in is accepted. -/
theorem waited {level : Level K} {now later : K} (refused : (bucket.draw level now).2 = false)
    (long : (1 - bucket.filled level now) / bucket.rate ≤ later - now) :
    (bucket.draw (bucket.draw level now).1 later).2 = true := by
  have short : bucket.filled level now < 1 := by
    by_contra enough
    rw [draw, if_neg enough] at refused
    cases refused
  have missing : 1 - bucket.filled level now ≤ (later - now) * bucket.rate :=
    (div_le_iff₀ bucket.flows).mp long
  have forward : 0 ≤ later - now := (div_nonneg (by linarith) bucket.flows.le).trans long
  have enough : ¬bucket.filled (bucket.draw level now).1 later < 1 := by
    rw [draw, if_pos short]
    show ¬min bucket.capacity (bucket.filled level now + max 0 (later - now) * bucket.rate) < 1
    rw [max_eq_right forward]
    exact not_lt.mpr (le_min bucket.room (by linarith))
  rw [draw, if_neg enough]

end TokenBucket
end KosSim.Library
