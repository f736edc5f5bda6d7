import Helios.Proofs.Exactness
import Helios.Builtin.Collections

/-!
# Counting — what `range` makes is what a loop goes through

A counting loop goes from `start` in steps until it comes to `stop` or past it (`walk`, over all integers). `range`
does not loop: it divides the distance by the step, rounded up, and makes so many items (`stepCount`, `progression`).
The division gives the number of rounds, in both directions (`continues_iff_lt_stepCount`); counting down is counting
up in the mirror (`stepCount_neg`), and so the arithmetic is done once. What the loop goes through lies between its
ends, so nothing wraps at 64 bits (`fits_of_mem_walk`).
-/

namespace Helios.Builtin

open Decimal (fitsInt fitsInt_iff toInt_ofInt_of_fits)

variable {start stop step : Int}

/-! ## The loop -/

/-- Whether a counting loop goes on at `i`. -/
def Continues (stop step i : Int) : Prop := 0 < step ∧ i < stop ∨ step < 0 ∧ stop < i

instance (stop step i : Int) : Decidable (Continues stop step i) := inferInstanceAs (Decidable (_ ∨ _))

/-- **What a counting loop goes through**: `start`, `start + step`, … as long as `stop` is ahead. -/
def walk (stop step start : Int) : List Int :=
  if Continues stop step start then start :: walk stop step (start + step) else []
termination_by (if 0 < step then stop - start else start - stop).toNat
decreasing_by
  rename_i h
  unfold Continues at h
  split <;> omega

theorem walk_of_continues (h : Continues stop step start) :
    walk stop step start = start :: walk stop step (start + step) := by
  rw [walk, if_pos h]

theorem walk_of_not_continues (h : ¬ Continues stop step start) : walk stop step start = [] := by
  rw [walk, if_neg h]

/-- A loop that goes on for `n` rounds. -/
theorem walk_eq_map {n : Nat} (h : ∀ k : Nat, Continues stop step (start + step * k) ↔ k < n) :
    walk stop step start = (List.range n).map fun k : Nat => start + step * k := by
  induction n generalizing start with
  | zero =>
    have hstop := mt (h 0).mp (Nat.lt_irrefl 0)
    rw [Int.natCast_zero, Int.mul_zero, Int.add_zero] at hstop
    rw [walk_of_not_continues hstop]
    rfl
  | succ n ih =>
    have hgo := (h 0).mpr n.succ_pos
    rw [Int.natCast_zero, Int.mul_zero, Int.add_zero] at hgo
    have hshift : ∀ k : Nat, start + step + step * k = start + step * (k + 1 : Nat) := by
      intro k
      rw [Int.natCast_add, Int.natCast_one, Int.mul_add, Int.mul_one]
      omega
    have hrest : ∀ k : Nat, Continues stop step (start + step + step * k) ↔ k < n := by
      intro k
      rw [hshift, h (k + 1), Nat.add_lt_add_iff_right]
    rw [walk_of_continues hgo, ih hrest, List.range_succ_eq_map, List.map_cons, List.map_map]
    congr 1
    · simp
    · exact List.map_congr_left fun k _ => hshift k

/-! ## The number of rounds -/

/-- Counting down is counting up in the mirror. -/
theorem stepCount_neg (start stop step : Int) : stepCount (-start) (-stop) (-step) = stepCount start stop step := by
  have hspan : -stop - -start = -(stop - start) := by omega
  unfold stepCount
  dsimp only
  rw [hspan, Int.sign_neg, Int.sign_neg]
  by_cases h : (stop - start).sign = step.sign
  · rw [if_pos h, if_pos (congrArg _ h),
      show -(stop - start) + -step - -step.sign = -(stop - start + step - step.sign) by omega, Int.neg_tdiv_neg]
  · rw [if_neg h, if_neg fun heq => h (Int.neg_inj.mp heq)]

/-- The rounds of a loop that counts up. -/
theorem stepCount_up (start stop : Int) (hstep : 0 < step) :
    ∃ n : Nat, stepCount start stop step = n ∧ ∀ k : Nat, start + step * k < stop ↔ k < n := by
  unfold stepCount
  dsimp only
  rw [Int.sign_eq_one_of_pos hstep]
  by_cases hspan : 0 < stop - start
  · have hnonneg : 0 ≤ (stop - start + step - 1) / step := Int.ediv_nonneg (by omega) hstep.le
    rw [if_pos (Int.sign_eq_one_of_pos hspan), Int.tdiv_eq_ediv_of_nonneg (by omega)]
    refine ⟨_, (Int.toNat_of_nonneg hnonneg).symm, fun k => ?_⟩
    -- the quotient is rounded up: one round more for what is left of the distance
    have hdiv : (k : Int) + 1 ≤ (stop - start + step - 1) / step ↔
        ((k : Int) + 1) * step ≤ stop - start + step - 1 := Int.le_ediv_iff_mul_le hstep
    rw [Int.add_mul, Int.one_mul, Int.mul_comm] at hdiv
    omega
  · rw [if_neg (mt Int.sign_eq_one_iff_pos.mp hspan)]
    refine ⟨0, rfl, fun k => ?_⟩
    have : 0 ≤ step * k := Int.mul_nonneg hstep.le (Int.natCast_nonneg k)
    omega

/-- **A loop goes on for as many rounds as the division gives.** -/
theorem continues_iff_lt_stepCount (start stop : Int) (hstep : step ≠ 0) :
    ∃ n : Nat, stepCount start stop step = n ∧ ∀ k : Nat, Continues stop step (start + step * k) ↔ k < n := by
  rcases Int.lt_or_gt_of_ne hstep with hneg | hpos
  · obtain ⟨n, hn, hrounds⟩ := stepCount_up (-start) (-stop) (show 0 < -step by omega)
    refine ⟨n, (stepCount_neg start stop step).symm.trans hn, fun k => ?_⟩
    rw [← hrounds, Int.neg_mul]
    unfold Continues
    omega
  · obtain ⟨n, hn, hrounds⟩ := stepCount_up start stop hpos
    refine ⟨n, hn, fun k => ?_⟩
    rw [← hrounds]
    unfold Continues
    omega

/-! ## The items -/

theorem progression_eq (start step : Int) (count : Nat) (tail : List Value) : progression start step count tail =
    ((List.range count).map fun k : Nat => Value.int (Int64.ofInt (start + step * k))) ++ tail := by
  induction count generalizing tail with
  | zero => rfl
  | succ count ih =>
    unfold progression
    rw [ih, List.range_succ, List.map_append, List.append_assoc]
    rfl

/-- **`range` counts the rounds of the loop, and its items are what the loop goes through.** -/
theorem progression_eq_walk (start stop : Int) (hstep : step ≠ 0) :
    stepCount start stop step = (walk stop step start).length ∧
    progression start step (walk stop step start).length [] =
      (walk stop step start).map fun i => .int (Int64.ofInt i) := by
  obtain ⟨n, hn, hrounds⟩ := continues_iff_lt_stepCount start stop hstep
  rw [walk_eq_map hrounds, List.length_map, List.length_range, progression_eq, List.append_nil, List.map_map]
  exact ⟨hn, rfl⟩

/-- The loop stays between its ends. -/
theorem between_of_mem_walk {i : Int} (hi : i ∈ walk stop step start) :
    0 < step ∧ start ≤ i ∧ i < stop ∨ step < 0 ∧ stop < i ∧ i ≤ start := by
  fun_induction walk stop step start with
  | case1 start hgo ih =>
    unfold Continues at hgo
    rcases List.mem_cons.mp hi with rfl | hi
    · omega
    · have := ih hi
      omega
  | case2 start hstop => nomatch hi

/-- **What a loop between 64-bit ends goes through fits 64 bits.** -/
theorem fits_of_mem_walk {start stop : Int64} {i : Int} (hi : i ∈ walk stop.toInt step start.toInt) :
    fitsInt i = true := by
  have hstart := start.le_toInt
  have hstart' := start.toInt_lt
  have hstop := stop.le_toInt
  have hstop' := stop.toInt_lt
  have hi := between_of_mem_walk hi
  unfold fitsInt Decimal.minInt Decimal.maxInt
  rw [Bool.and_eq_true, decide_eq_true_iff, decide_eq_true_iff]
  omega

/-- What `range` answers for a start, a stop and a step. -/
def counted (start stop step : Int) : Except Cause Value :=
  if step = 0 then .error (.value .zeroStep)
  else if (maxBuilt : Int) < stepCount start stop step then
    .error (.value (.rangeTooLarge (stepCount start stop step)))
  else .ok (.list (progression start step (stepCount start stop step).toNat []))

theorem range_start_stop_step (start stop step : Int64) :
    range [.int start, .int stop, .int step] = counted start.toInt stop.toInt step.toInt := rfl

theorem range_start_stop (start stop : Int64) :
    range [.int start, .int stop] = counted start.toInt stop.toInt 1 := rfl

theorem range_stop (stop : Int64) : range [.int stop] = counted 0 stop.toInt 1 := rfl

theorem maxBuilt_eq : maxBuilt = 2 ^ 24 := by
  decide

/-- **`range` makes what a loop goes through**, up to `2 ^ 24` items, and nothing in it wraps; a longer one and a step of
    zero are refused. The start is zero and the step one where they are not given. -/
theorem range_is_loop (start stop step : Int64) :
    range [.int start, .int stop, .int step] =
      (if step = 0 then .error (.value .zeroStep)
      else if (walk stop.toInt step.toInt start.toInt).length ≤ 2 ^ 24 then
        .ok (.list ((walk stop.toInt step.toInt start.toInt).map fun i => .int (Int64.ofInt i)))
      else .error (.value (.rangeTooLarge (walk stop.toInt step.toInt start.toInt).length))) ∧
    (walk stop.toInt step.toInt start.toInt).map (fun i => (Int64.ofInt i).toInt) =
      walk stop.toInt step.toInt start.toInt ∧
    range [.int start, .int stop] = range [.int start, .int stop, .int 1] ∧
    range [.int stop] = range [.int 0, .int stop, .int 1] := by
  refine ⟨?_, ?_, ?_, ?_⟩
  · have hzero : step.toInt = 0 ↔ step = 0 := by rw [← Int64.toInt_inj, Int64.toInt_zero]
    rw [range_start_stop_step]
    unfold counted
    by_cases hstep : step = 0
    · rw [if_pos (hzero.mpr hstep), if_pos hstep]
    have hstep' : step.toInt ≠ 0 := mt hzero.mp hstep
    obtain ⟨hcount, hitems⟩ := progression_eq_walk start.toInt stop.toInt hstep'
    rw [if_neg hstep', if_neg hstep, hcount, Int.toNat_natCast, hitems, maxBuilt_eq]
    by_cases hlong : (walk stop.toInt step.toInt start.toInt).length ≤ 2 ^ 24
    · rw [if_pos hlong, if_neg fun h => absurd hlong (Int.ofNat_lt.mp h).not_ge]
    · rw [if_neg hlong, if_pos (Int.ofNat_lt.mpr (not_le.mp hlong))]
  · refine (List.map_congr_left fun i hi => ?_).trans (List.map_id _)
    exact toInt_ofInt_of_fits (fits_of_mem_walk hi)
  · rw [range_start_stop_step, range_start_stop, Int64.toInt_one]
  · rw [range_start_stop_step, range_stop, Int64.toInt_zero, Int64.toInt_one]

/-- Counting down to the least integer, past which the next step would lead. -/
example : range [.int (Int64.minValue + 3), .int Int64.minValue, .int (-2)] =
    .ok (.list [.int (-9223372036854775805), .int (-9223372036854775807)]) := by
  rfl

end Helios.Builtin
