import Mathlib
import Helios.Proofs.Rounding
import Helios.Builtin.Numbers

/-!
# Exactness — integers that stay integers

An operation on integers owes the exact result wherever that is an integer of 64 bits, and may go on in floats only
where it is not. `Value.Exact` says so of one result; an operation that computes exactly and then looks whether the
result fits meets it at once (`exactOr_exact`).

Two operations look at something else than the result. `%` asks whether the *quotient* fits, which the one of the
least integer by `-1` does not, though the remainder is zero. `pow` takes exponents of at most 32 bits, though powers
of `0`, `1` and `-1` fit with any. `integer_operations_exact` shows that these are the only exceptions.
-/

namespace Helios

namespace Decimal

/-- What fits are the values of 64-bit integers. -/
theorem fitsInt_iff {n : Int} : fitsInt n = true ↔ ∃ m : Int64, m.toInt = n := by
  unfold fitsInt minInt maxInt
  rw [Bool.and_eq_true, decide_eq_true_iff, decide_eq_true_iff]
  constructor
  · rintro ⟨hlow, hhigh⟩
    exact ⟨Int64.ofInt n, Int64.toInt_ofInt_of_le (by omega) (by omega)⟩
  · rintro ⟨m, rfl⟩
    have hlow := m.le_toInt
    have hhigh := m.toInt_lt
    omega

theorem toInt_ofInt_of_fits {n : Int} (h : fitsInt n = true) : (Int64.ofInt n).toInt = n := by
  obtain ⟨m, rfl⟩ := fitsInt_iff.mp h
  rw [Int64.ofInt_toInt]

/-- A number that is no larger in absolute value than one of 64 bits, and not negative, fits. -/
theorem fitsInt_of_natAbs_lt {n : Int} {m : Int64} (h : 0 ≤ n) (hlt : n < m.toInt.natAbs) : fitsInt n = true := by
  have hlow := m.le_toInt
  have hhigh := m.toInt_lt
  unfold fitsInt minInt maxInt
  rw [Bool.and_eq_true, decide_eq_true_iff, decide_eq_true_iff]
  omega

/-- Only zero becomes the float zero. -/
theorem floatOfInt_beq_zero (n : Int64) : (floatOfInt n == 0.0) = true ↔ n = 0 := by
  have hzero : floatOfInt 0 = 0.0 := by with_unfolding_all rfl
  rw [← hzero, floatOfInt_beq, Int64.toInt_zero]
  constructor
  · intro h
    -- rounding takes no integer but zero to zero
    change rounded n.toInt = 0 at h
    refine Int64.toInt_inj.mp ?_
    rw [Int64.toInt_zero]
    cases hn : n.toInt with
    | ofNat k =>
      rw [hn] at h
      by_contra hne
      exact nearest_ne_zero (fun hk => hne (congrArg Int.ofNat hk)) (Int.ofNat.inj h)
    | negSucc k =>
      rw [hn] at h
      exact absurd (Int.ofNat.inj (Int.neg_eq_zero.mp h)) (nearest_ne_zero (Nat.succ_ne_zero k))
  · rintro rfl
    rfl

end Decimal

namespace Value

open Decimal (fitsInt fitsInt_iff floatOfInt)

/-- **What an operation on integers owes** when `n` is the exact result: that integer, and a float only if there is
    none of 64 bits. -/
inductive Exact (n : Int) : Value → Prop
  | int (m : Int64) (h : m.toInt = n) : Exact n (.int m)
  | float (x : Float) (h : ∀ m : Int64, m.toInt ≠ n) : Exact n (.float x)

theorem exact_int_of_fits {n : Int} (h : fitsInt n = true) : Exact n (int (Int64.ofInt n)) :=
  .int _ (Decimal.toInt_ofInt_of_fits h)

theorem exact_float_iff {n : Int} {x : Float} : Exact n (float x) ↔ fitsInt n = false := by
  rw [Bool.eq_false_iff, ne_eq, fitsInt_iff, not_exists]
  exact ⟨fun h => by cases h; assumption, .float x⟩

/-- **An exact computation with a float in reserve.** -/
theorem exactOr_exact (n : Int) (x : Float) : Exact n (exactOr n x) := by
  unfold exactOr
  split
  · next h => exact exact_int_of_fits h
  · next h => exact exact_float_iff.mpr (Bool.eq_false_iff.mpr h)

theorem rem_int (a b : Int64) : rem (int a) (int b) =
    if b = 0 then .error (.value .moduloByZero)
    else if quotientOverflows a b then .ok (float (Decimal.modFloat (floatOfInt a) (floatOfInt b)))
    else .ok (int (Int64.ofInt (a.toInt % b.toInt))) := by
  show (if (floatOfInt b == 0.0) = true then _ else _) = _
  simp only [Decimal.floatOfInt_beq_zero]

theorem quotientOverflows_iff {a b : Int64} : quotientOverflows a b = true ↔ a = Int64.minValue ∧ b = -1 := by
  unfold quotientOverflows
  rw [Bool.and_eq_true, beq_iff_eq, beq_iff_eq, ← Int64.toInt_inj, ← Int64.toInt_inj]
  rfl

/-- **A remainder is exact** unless the quotient that goes with it does not fit. -/
theorem rem_exact {a b : Int64} (hb : b ≠ 0) :
    ∃ v, rem (int a) (int b) = .ok v ∧ (v.Exact (a.toInt % b.toInt) ↔ ¬ (a = Int64.minValue ∧ b = -1)) := by
  have hb' : b.toInt ≠ 0 := fun h => hb (Int64.toInt_inj.mp (by rw [h, Int64.toInt_zero]))
  have hfits : fitsInt (a.toInt % b.toInt) = true :=
    Decimal.fitsInt_of_natAbs_lt (Int.emod_nonneg _ hb') (Int.emod_lt _ hb')
  rw [rem_int, if_neg hb, ← quotientOverflows_iff]
  split
  · next hq =>
    refine ⟨_, rfl, ?_⟩
    rw [exact_float_iff, hfits]
    simp [hq]
  · next hq => exact ⟨_, rfl, iff_of_true (exact_int_of_fits hfits) hq⟩

end Value

namespace Builtin

open Decimal (fitsInt)

/-- Beyond 63 factors, only powers of `0`, `1` and `-1` are small enough. -/
theorem not_fitsInt_pow {b : Int} {e : Nat} (hb : 1 < b.natAbs) (he : 64 ≤ e) : fitsInt (b ^ e) = false := by
  have hlarge : 2 ^ 64 ≤ (b ^ e).natAbs := by
    rw [Int.natAbs_pow]
    exact (Nat.pow_le_pow_right (by decide) he).trans (Nat.pow_le_pow_left hb e)
  unfold fitsInt Decimal.minInt Decimal.maxInt
  rw [Bool.eq_false_iff, ne_eq, Bool.and_eq_true, decide_eq_true_iff, decide_eq_true_iff]
  omega

/-- **A power is computed if it fits.** -/
theorem powExact?_eq (b : Int) (e : Nat) : powExact? b e = if fitsInt (b ^ e) then some (b ^ e) else none := by
  unfold powExact?
  change (if e < 64 then if fitsInt (b ^ e) then some (b ^ e) else none else _) = _
  split
  · rfl
  · next he =>
    have hne : e ≠ 0 := by omega
    split
    · next hb =>
      -- `0` and `1` are their own powers
      have hpow : b ^ e = b := by
        rcases hb with rfl | rfl
        · exact zero_pow hne
        · exact one_pow e
      have hfits : fitsInt b = true := by rcases hb with rfl | rfl <;> decide
      rw [hpow, if_pos hfits]
    · next hb =>
      split
      · next hminus =>
        -- a power of `-1` has the sign that the parity of the exponent gives
        subst hminus
        rcases Nat.even_or_odd e with heven | hodd
        · rw [heven.neg_one_pow, if_pos (Nat.even_iff.mp heven)]
          rfl
        · rw [hodd.neg_one_pow, if_neg (by rw [Nat.odd_iff.mp hodd]; decide)]
          rfl
      · next hminus =>
        rw [not_fitsInt_pow (by omega) (by omega)]
        rfl

/-- Powers of these three fit with any exponent. -/
theorem fitsInt_pow_of_natAbs_le {b : Int} (hb : b.natAbs ≤ 1) (e : Nat) : fitsInt (b ^ e) = true := by
  have hsmall : (b ^ e).natAbs ≤ 1 := by
    rw [Int.natAbs_pow]
    exact (Nat.pow_le_pow_left hb e).trans_eq (Nat.one_pow e)
  unfold fitsInt Decimal.minInt Decimal.maxInt
  rw [Bool.and_eq_true, decide_eq_true_iff, decide_eq_true_iff]
  omega

theorem pow_int (a b : Int64) : ∃ x, pow [.int a, .int b] =
    .ok ((powInts? (.int a) (.int b)).getD (.float x)) := by
  refine ⟨(Decimal.floatOfInt a).pow (Decimal.floatOfInt b), ?_⟩
  have hbase : arg [.int a, .int b] 0 = .ok (.int a) := rfl
  have hexponent : arg [.int a, .int b] 1 = .ok (.int b) := rfl
  unfold pow
  rw [hbase, hexponent]
  dsimp only [bind, Except.bind]
  cases powInts? (.int a) (.int b) <;> rfl

/-- **A power is exact** unless its exponent takes more than 32 bits and it is one of `0`, `1` and `-1`. -/
theorem pow_exact {a b : Int64} (hb : 0 ≤ b.toInt) : ∃ v, pow [.int a, .int b] = .ok v ∧
    (v.Exact (a.toInt ^ b.toInt.toNat) ↔ ¬ (0x100000000 ≤ b.toInt ∧ a.toInt.natAbs ≤ 1)) := by
  obtain ⟨x, hpow⟩ := pow_int a b
  refine ⟨_, hpow, ?_⟩
  unfold powInts?
  dsimp only
  rw [powExact?_eq]
  by_cases hlt : b.toInt < 0x100000000
  · -- the exponent is taken as it is
    rw [if_pos ⟨hb, hlt⟩]
    refine iff_of_true ?_ (by omega)
    split
    · next hfits => exact Value.exact_int_of_fits hfits
    · next hfits => exact Value.exact_float_iff.mpr (Bool.eq_false_iff.mpr hfits)
  · -- a float, whatever the base is
    rw [if_neg (by omega)]
    show Value.Exact _ (.float x) ↔ _
    rw [Value.exact_float_iff]
    by_cases hsmall : a.toInt.natAbs ≤ 1
    · rw [fitsInt_pow_of_natAbs_le hsmall]
      exact iff_of_false nofun fun h => h ⟨by omega, hsmall⟩
    · exact iff_of_true (not_fitsInt_pow (by omega) (by omega)) fun h => hsmall h.2

end Builtin

/-- **Operations on integers are exact whenever the result fits.** Sums, differences, products, negation and `abs`
    are so without exception. Remainders are Euclidean and exact, except for the least integer by `-1`; powers are
    exact, except those of `0`, `1` and `-1` with an exponent of more than 32 bits. A remainder by zero fails. -/
theorem integer_operations_exact (a b : Int64) :
    (∃ v, Value.binary .add (.int a) (.int b) = .ok v ∧ v.Exact (a.toInt + b.toInt)) ∧
    (∃ v, Value.binary .sub (.int a) (.int b) = .ok v ∧ v.Exact (a.toInt - b.toInt)) ∧
    (∃ v, Value.binary .mul (.int a) (.int b) = .ok v ∧ v.Exact (a.toInt * b.toInt)) ∧
    (∃ v, Value.neg (.int a) = .ok v ∧ v.Exact (-a.toInt)) ∧
    (∃ v, Builtin.abs [.int a] = .ok v ∧ v.Exact |a.toInt|) ∧
    (b = 0 → Value.binary .rem (.int a) (.int b) = .error (.value .moduloByZero)) ∧
    (b ≠ 0 → 0 ≤ a.toInt % b.toInt ∧ a.toInt % b.toInt < |b.toInt| ∧
      ∃ v, Value.binary .rem (.int a) (.int b) = .ok v ∧
        (v.Exact (a.toInt % b.toInt) ↔ ¬ (a = Int64.minValue ∧ b = -1))) ∧
    (0 ≤ b → ∃ v, Builtin.pow [.int a, .int b] = .ok v ∧
      (v.Exact (a.toInt ^ b.toInt.toNat) ↔ ¬ (0x100000000 ≤ b.toInt ∧ a.toInt.natAbs ≤ 1))) := by
  refine ⟨⟨_, rfl, Value.exactOr_exact _ _⟩, ⟨_, rfl, Value.exactOr_exact _ _⟩, ⟨_, rfl, Value.exactOr_exact _ _⟩,
    ⟨_, rfl, Value.exactOr_exact _ _⟩, ⟨_, rfl, ?_⟩, fun hb => ?_, fun hb => ?_, fun hb => ?_⟩
  · rw [← Int.natCast_natAbs]
    exact Value.exactOr_exact _ _
  · exact (Value.rem_int a b).trans (if_pos hb)
  · have hb' : b.toInt ≠ 0 := fun h => hb (Int64.toInt_inj.mp (by rw [h, Int64.toInt_zero]))
    exact ⟨Int.emod_nonneg _ hb', Int.emod_lt_abs _ hb', Value.rem_exact hb⟩
  · exact Builtin.pow_exact (by simpa [Int64.le_iff_toInt_le] using hb)

/-- The least integer: its remainder by three, its cube, which does not fit, and its remainder by zero. -/
theorem integer_operations_exact_least :
    (∃ v, Value.binary .rem (.int Int64.minValue) (.int 3) = .ok v ∧ v.Exact 1) ∧
    (∃ x, Builtin.pow [.int Int64.minValue, .int 3] = .ok (.float x)) ∧
    Value.binary .rem (.int Int64.minValue) (.int 0) = .error (.value .moduloByZero) := by
  obtain ⟨-, -, -, -, -, -, hrem, hpow⟩ := integer_operations_exact Int64.minValue 3
  obtain ⟨-, -, -, -, -, hzero, -, -⟩ := integer_operations_exact Int64.minValue 0
  refine ⟨?_, ?_, hzero rfl⟩
  · obtain ⟨-, -, v, hv, hexact⟩ := hrem (by decide)
    exact ⟨v, hv, hexact.mpr (by decide)⟩
  · obtain ⟨v, hv, hexact⟩ := hpow (by decide)
    cases hexact.mpr (by decide) with
    | int m h =>
      have hlow := m.le_toInt
      rw [h] at hlow
      exact absurd hlow (by decide)
    | float x h => exact ⟨x, hv⟩

/-- **Results that fit but come as floats**: the remainder of the least integer by `-1` is zero, and every power of `1`
    is `1`. -/
theorem exact_results_as_floats :
    (∃ x, Value.binary .rem (.int Int64.minValue) (.int (-1)) = .ok (.float x) ∧
      ¬ (Value.float x).Exact (Int64.minValue.toInt % (-1))) ∧
    ∃ x, Builtin.pow [.int 1, .int 0x100000000] = .ok (.float x) ∧ ¬ (Value.float x).Exact (1 ^ 0x100000000) := by
  refine ⟨⟨_, rfl, fun h => ?_⟩, _, rfl, fun h => ?_⟩
  · exact absurd (Value.exact_float_iff.mp h) (by decide)
  · rw [one_pow, Value.exact_float_iff] at h
    exact absurd h (by decide)

end Helios
