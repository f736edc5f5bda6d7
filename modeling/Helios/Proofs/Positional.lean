import Mathlib
import Helios.Decimal.Read
import Helios.Decimal.Layout

/-!
# Positional — numbers that are read and numbers that are written

What is read from digits has no sign (`readFloat_unsigned`, `readInt64_nonneg`). A finite float without a sign is
written with digits on both sides of a point (`write_value_unsigned`): a power of ten is never written, and a number
with a fraction has digits of its fraction, since what is nearest to it with few digits is never whole
(`Scientific.shortest_exponent_neg`). A whole number without a sign is read back (`readInt64_digits`).
-/

namespace Helios.Decimal

/-! ## Signs -/

/-- A float whose sign bit is not set. -/
def Unsigned (x : Float) : Prop := x.toBits.toNat < 2 ^ 63

theorem Unsigned.neg_eq_false {x : Float} (h : Unsigned x) {d : Binary} (hd : Binary.ofFloat? x = some d) :
    d.neg = false := by
  have hneg : (x.toBits.toNat / twoTo 63 == 1) = false := by
    unfold Unsigned at h
    rw [Nat.div_eq_of_lt (show x.toBits.toNat < twoTo 63 from h)]
    rfl
  unfold Binary.ofFloat? at hd
  dsimp only at hd
  rw [hneg] at hd
  split at hd
  · nomatch hd
  · split at hd <;> exact Option.some.inj hd ▸ rfl

open Float.Model (UnpackedFloat Format)
open Float.Model.UnpackedFloat (Sign)

/-- A number in parts that is not negative; NaN is none. -/
def Positive : UnpackedFloat → Prop
  | .infinity s | .zero s | .finite s _ _ _ => s = .positive
  | .notANumber => True

variable {f g : UnpackedFloat} {a b : Float}

theorem positive_round (m : Nat) (e : Int) (accuracy : UnpackedFloat.Accuracy) :
    Positive (UnpackedFloat.roundWithAccuracy .binary64 .positive m e accuracy) := by
  unfold UnpackedFloat.roundWithAccuracy
  dsimp only
  split <;> rfl

theorem positive_mul (hf : Positive f) (hg : Positive g) : Positive (UnpackedFloat.mul .binary64 f g) := by
  cases f <;> cases g <;> cases hf <;> cases hg <;> first | exact rfl | exact trivial | exact positive_round _ _ _

theorem positive_div (hf : Positive f) (hg : Positive g) : Positive (UnpackedFloat.div .binary64 f g) := by
  cases f <;> cases g <;> cases hf <;> cases hg <;> first | exact rfl | exact trivial | exact positive_round _ _ _

theorem positive_ofScientific (m : Nat) (e : Int) : Positive (UnpackedFloat.ofScientific .binary64 m e) := by
  unfold UnpackedFloat.ofScientific
  split
  · rfl
  split
  · rfl
  split
  · rfl
  split
  · exact positive_mul rfl rfl
  · exact positive_div rfl rfl

theorem packComponents_lt (e : BitVec 11) (m : BitVec 52) :
    (UnpackedFloat.packComponents .binary64 .positive e m).toNat < 2 ^ 63 := by
  have hmsb : (UnpackedFloat.packComponents .binary64 .positive e m).msb = false := by
    unfold UnpackedFloat.packComponents
    rw [BitVec.msb_append, BitVec.msb_append]
    rfl
  have hlt : 2 * (UnpackedFloat.packComponents .binary64 .positive e m).toNat < 2 ^ 64 :=
    BitVec.msb_eq_false_iff_two_mul_lt.mp hmsb
  omega

theorem pack_lt (hf : Positive f) : (UnpackedFloat.pack .binary64 f).toNat < 2 ^ 63 := by
  cases f with
  | infinity s =>
    cases hf
    exact packComponents_lt _ _
  | notANumber => exact packComponents_lt _ _
  | zero s =>
    cases hf
    exact packComponents_lt _ _
  | finite s m e hm =>
    cases hf
    unfold UnpackedFloat.pack
    dsimp only
    split
    · exact packComponents_lt _ _
    · split <;> exact packComponents_lt _ _

theorem positive_unpack {v : BitVec 64} (h : v.toNat < 2 ^ 63) : Positive (UnpackedFloat.unpack .binary64 v) := by
  have hsign : Sign.ofBitVec (@UnpackedFloat.unpackSign .binary64 v) = .positive := by
    have hzero : @UnpackedFloat.unpackSign .binary64 v = 0#1 := by
      refine BitVec.eq_of_toNat_eq ?_
      unfold UnpackedFloat.unpackSign
      rw [BitVec.toNat_cast, BitVec.extractLsb_toNat, Nat.shiftRight_eq_div_pow]
      show v.toNat / 2 ^ 63 % 2 = 0
      rw [Nat.div_eq_of_lt h]
    rw [hzero]
    rfl
  unfold UnpackedFloat.unpack
  dsimp only
  rw [hsign]
  split
  · split
    · rfl
    · trivial
  · split
    · split <;> rfl
    · rfl

/-- Two numbers that are not negative, unpacked, computed with and packed again. -/
theorem Unsigned.unpack (h : Unsigned a) : Positive a.toModel.unpack := positive_unpack h

theorem unsigned_of_positive (hf : Positive f) : Unsigned ⟨.pack f⟩ := pack_lt hf

theorem Unsigned.mul (ha : Unsigned a) (hb : Unsigned b) : Unsigned (a * b) :=
  unsigned_of_positive (positive_mul ha.unpack hb.unpack)

theorem Unsigned.div (ha : Unsigned a) (hb : Unsigned b) : Unsigned (a / b) :=
  unsigned_of_positive (positive_div ha.unpack hb.unpack)

theorem unsigned_toFloat (n : UInt64) : Unsigned n.toFloat := by
  refine unsigned_of_positive ?_
  unfold UnpackedFloat.ofUInt64 UnpackedFloat.ofNat UnpackedFloat.ofInt UnpackedFloat.normalize
  split
  · rename_i hlt
    rw [Int.compare_eq_lt] at hlt
    omega
  · rfl
  · exact positive_round _ _ _

theorem unsigned_powerOfTen : ∀ i : Fin 23, Unsigned Float.exactlyRepresentablePowersOfTen[i] := by
  unfold Unsigned
  decide

/-- **What is read from digits has no sign.** -/
theorem unsigned_ofScientific (m : Nat) (negative : Bool) (e : Nat) : Unsigned (Float.ofScientific m negative e) := by
  unfold Float.ofScientific
  split
  · rename_i h
    have hpower := unsigned_powerOfTen ⟨e, Nat.lt_succ_of_le h.2⟩
    dsimp only
    split
    · exact (unsigned_toFloat _).div hpower
    · exact (unsigned_toFloat _).mul hpower
  · exact unsigned_of_positive (positive_ofScientific _ _)

theorem floatOfDecimal_unsigned (c : Nat) (e : Int) : Unsigned (floatOfDecimal c e) := by
  unfold floatOfDecimal
  split
  · exact unsigned_ofScientific 0 true 1
  · dsimp only
    split
    · exact (unsigned_ofScientific 10 true 1).div (unsigned_ofScientific 0 true 1)
    · split
      · exact unsigned_ofScientific 0 true 1
      · exact unsigned_ofScientific _ _ _

theorem readMagnitude_unsigned {cs : List Char} {x : Float} (h : readMagnitude cs = some x) : Unsigned x := by
  have hparts (fraction rest : List Char) (h : (if cs.takeWhile isDigit = [] ∧ fraction = [] then none else
      (readPower rest).map fun e =>
        floatOfDecimal (natOfDigits (cs.takeWhile isDigit ++ fraction)) (e - fraction.length)) = some x) :
      Unsigned x := by
    split at h
    · nomatch h
    · obtain ⟨e, -, rfl⟩ := Option.map_eq_some_iff.mp h
      exact floatOfDecimal_unsigned _ _
  unfold readMagnitude at h
  dsimp only at h
  split at h
  · exact hparts _ _ h
  · exact hparts _ _ h

/-- What is read without a sign has none. -/
theorem readFloat_unsigned {cs : List Char} {x : Float} (hsign : splitSign cs = (false, cs))
    (h : readFloat cs = some x) : Unsigned x := by
  unfold readFloat at h
  rw [hsign] at h
  obtain ⟨y, hy, rfl⟩ := Option.map_eq_some_iff.mp h
  show Unsigned y
  have hinf : Unsigned (1.0 / 0.0) := (unsigned_ofScientific 10 true 1).div (unsigned_ofScientific 0 true 1)
  have hnan : Unsigned (0.0 / 0.0) := (unsigned_ofScientific 0 true 1).div (unsigned_ofScientific 0 true 1)
  split at hy
  · exact Option.some.inj hy ▸ hinf
  · exact Option.some.inj hy ▸ hinf
  · exact Option.some.inj hy ▸ hnan
  · exact readMagnitude_unsigned hy

/-! ## The shortest digits of a number with a fraction -/

namespace Scientific

/-- What stripping zeros keeps: the value. Zero is left alone. -/
theorem stripZeros_eq (fuel : Nat) (s : Scientific) :
    ∃ j : Nat, (stripZeros fuel s).exponent = s.exponent + j ∧
      s.coefficient = (stripZeros fuel s).coefficient * 10 ^ j ∧ (0 < j → s.coefficient ≠ 0) := by
  induction fuel generalizing s with
  | zero => exact ⟨0, by simp [stripZeros], by simp [stripZeros], nofun⟩
  | succ fuel ih =>
    unfold stripZeros
    split
    · rename_i h
      -- one zero goes here, the others from the number divided by ten
      obtain ⟨j, hexponent, hcoefficient, -⟩ := ih ⟨s.coefficient / 10, s.exponent + 1⟩
      refine ⟨j + 1, ?_, ?_, fun _ => h.1⟩
      · rw [hexponent]
        push_cast
        omega
      · rw [Nat.pow_succ, ← Nat.mul_assoc, ← hcoefficient]
        exact (Nat.div_mul_cancel (Nat.dvd_of_mod_eq_zero h.2)).symm
    · exact ⟨0, by simp, by simp, nofun⟩

end Scientific

namespace Interval

variable {i : Interval}

/-- The search for digits ends with digits that read back, or it has tried them all. -/
theorem firstHit_cases (i : Interval) (k : Int) (fuel n : Nat) :
    i.admits (i.firstHit k fuel n).coefficient (i.firstHit k fuel n).exponent = true ∨
      i.firstHit k fuel n = ⟨i.floorAt (k - (n + fuel : Nat)), k - (n + fuel : Nat)⟩ := by
  induction fuel generalizing n with
  | zero => exact .inr rfl
  | succ fuel ih =>
    unfold firstHit
    dsimp only
    split
    · rename_i hbelow habove
      split
      · exact .inl hbelow
      · exact .inl habove
    · rename_i hbelow _
      exact .inl hbelow
    · rename_i _ habove
      exact .inl habove
    · have := ih (n + 1)
      rwa [Nat.succ_add_eq_add_succ] at this

/-- What is admitted lies between the ends. -/
theorem admits_le {c : Nat} {e : Int} (h : i.admits c e = true) :
    i.low * 10 ^ (-e).toNat ≤ c * 10 ^ e.toNat * i.denominator ∧
      c * 10 ^ e.toNat * i.denominator ≤ i.high * 10 ^ (-e).toNat := by
  unfold admits tenTo at h
  dsimp only at h
  split at h
  · simpa using h
  · simp only [Bool.and_eq_true, decide_eq_true_eq] at h
    exact ⟨Nat.le_of_lt h.1, Nat.le_of_lt h.2⟩

/-- The search for the magnitude stops at the first power of ten above the value. -/
theorem magnitudeFrom_le {k : Int} (hk : i.floorAt k = 0) (fuel : Nat) {start : Int} (hstart : start ≤ k) :
    i.magnitudeFrom fuel start ≤ k := by
  induction fuel generalizing start with
  | zero => exact hstart
  | succ fuel ih =>
    unfold magnitudeFrom
    split
    · exact hstart
    · rename_i hne
      refine ih ?_
      have : start ≠ k := by
        rintro rfl
        exact hne hk
      omega

section Fraction

variable {m r : Nat}

theorem denominator_ofBinary (m r : Nat) : (ofBinary m (-(r : Int))).denominator = 4 * 2 ^ r := by
  unfold ofBinary twoTo
  dsimp only
  have hk : (-(-(r : Int) - 2)).toNat = r + 2 := by omega
  rw [hk]
  show 2 ^ (r + 2) = _
  rw [Nat.pow_add, Nat.mul_comm]

theorem ends_ofBinary (m r : Nat) : (ofBinary m (-(r : Int))).value = 4 * m ∧
    4 * m ≤ (ofBinary m (-(r : Int))).low + 2 ∧ (ofBinary m (-(r : Int))).high = 4 * m + 2 := by
  unfold ofBinary twoTo
  dsimp only
  have hk : (-(r : Int) - 2).toNat = 0 := by omega
  rw [hk]
  refine ⟨Nat.mul_one _, ?_, Nat.mul_one _⟩
  show 4 * m ≤ (4 * m - _) * 1 + 2
  split <;> omega

/-- **No whole number reads back** as a number with a fraction. -/
theorem not_whole_between (hm : m % 2 ^ r ≠ 0) (n : Nat) :
    ¬ ((ofBinary m (-(r : Int))).low ≤ n * (ofBinary m (-(r : Int))).denominator ∧
      n * (ofBinary m (-(r : Int))).denominator ≤ (ofBinary m (-(r : Int))).high) := by
  obtain ⟨-, hlow, hhigh⟩ := ends_ofBinary m r
  rw [denominator_ofBinary, hhigh]
  rintro ⟨h₁, h₂⟩
  have hn : n * (4 * 2 ^ r) = 4 * (n * 2 ^ r) := by rw [Nat.mul_left_comm]
  rw [hn] at h₁ h₂
  have heq : m = n * 2 ^ r := by omega
  exact hm (heq ▸ Nat.mul_mod_left n (2 ^ r))

theorem floorAt_ofBinary (m r p : Nat) : (ofBinary m (-(r : Int))).floorAt (-(p : Int)) = m * 10 ^ p / 2 ^ r := by
  unfold floorAt tenTo
  rw [(ends_ofBinary m r).1, denominator_ofBinary]
  have hp : (-(-(p : Int))).toNat = p := by omega
  have hp' : (-(p : Int)).toNat = 0 := by omega
  rw [hp, hp']
  show 4 * m * 10 ^ p / (4 * 2 ^ r * 1) = _
  rw [Nat.mul_one, Nat.mul_assoc, Nat.mul_div_mul_left _ _ (by decide)]

theorem floorAt_eq_zero {k : Nat} (h : m < 2 ^ r * 10 ^ k) : (ofBinary m (-(r : Int))).floorAt (k : Int) = 0 := by
  unfold floorAt tenTo
  rw [(ends_ofBinary m r).1, denominator_ofBinary]
  have hk : (-(k : Int)).toNat = 0 := by omega
  have hk' : (k : Int).toNat = k := by omega
  rw [hk, hk']
  show 4 * m * 1 / (4 * 2 ^ r * 10 ^ k) = 0
  refine Nat.div_eq_of_lt ?_
  rw [Nat.mul_one, Nat.mul_assoc]
  omega

/-- The estimate that the search for the magnitude starts from. -/
theorem magnitude_ofBinary (hm : m ≠ 0) : (ofBinary m (-(r : Int))).magnitude =
    (ofBinary m (-(r : Int))).magnitudeFrom 8 (((m.log2 : Int) - r) * 30103 / 100000 - 2) := by
  have hvalue : (4 * m).log2 = m.log2 + 2 := by
    have : 4 * m = 2 * (2 * m) := by omega
    rw [this, Nat.log2_two_mul (by omega), Nat.log2_two_mul hm]
  have hdenominator : (4 * 2 ^ r).log2 = r + 2 := by
    have : 4 * 2 ^ r = 2 ^ (r + 2) := by rw [Nat.pow_add, Nat.mul_comm]
    rw [this, Nat.log2_two_pow]
  unfold magnitude
  rw [(ends_ofBinary m r).1, denominator_ofBinary, hvalue, hdenominator]
  have hbits : ((m.log2 + 2 : Nat) : Int) - ((r + 2 : Nat) : Int) = (m.log2 : Int) - r := by omega
  rw [hbits]

/-- A bound on the number of digits before the point of a number with `b + 1` binary ones. -/
theorem power_bounds : ∀ b ≤ 52, 2 ^ (b + 1) ≤ 10 ^ (b * 30103 / 100000 + 2) ∧
    2 ^ (52 - b) ≤ 10 ^ (16 - b * 30103 / 100000) := by
  decide

theorem log2_le (hm : m < 2 ^ 53) : m.log2 ≤ 52 := by
  by_cases h0 : m = 0
  · rw [h0]
    decide
  · exact Nat.le_of_lt_succ ((Nat.log2_lt h0).mpr hm)

end Fraction

end Interval

namespace Scientific

open Helios.Decimal.Interval

variable {m r : Nat}

/-- Digits that are whole after their zeros are stripped are a whole number of units. -/
theorem whole_of_stripped {c c' j : Nat} {e : Int} (hc : c = c' * 10 ^ j) (he : 0 ≤ e + j) :
    ∃ n, c * 10 ^ e.toNat = n * 10 ^ (-e).toNat := by
  refine ⟨c' * 10 ^ (e + j).toNat, ?_⟩
  have hsum : j + e.toNat = (e + j).toNat + (-e).toNat := by omega
  rw [hc, Nat.mul_assoc, Nat.mul_assoc, ← Nat.pow_add, ← Nat.pow_add, hsum]

/-- Where the search has tried all digits, they are no whole number either: the fraction is larger than their unit. -/
theorem floorAt_ne_whole {n p : Nat} (hm : m % 2 ^ r ≠ 0) (hlt : m < 2 ^ 53) (hn : n ≠ 0)
    (hp : (18 : Int) - (ofBinary m (-(r : Int))).magnitude = p) : m * 10 ^ p / 2 ^ r ≠ n * 10 ^ p := by
  intro heq
  have hm0 : m ≠ 0 := by
    rintro rfl
    exact hm (Nat.zero_mod _)
  have hpos : 0 < 2 ^ r := Nat.two_pow_pos r
  -- the whole part of the number
  have hbelow : n * 2 ^ r ≤ m := by
    have h := Nat.div_mul_le_self (m * 10 ^ p) (2 ^ r)
    rw [heq, Nat.mul_right_comm] at h
    exact Nat.le_of_mul_le_mul_right h (Nat.pow_pos (by decide))
  have hfraction : n * 2 ^ r + 1 ≤ m := by
    refine Nat.lt_of_le_of_ne hbelow fun h => hm ?_
    rw [← h, Nat.mul_mod_left]
  -- cut off to a whole number, it has a fraction below a unit of the last digit
  have hunit : 10 ^ p < 2 ^ r := by
    have h := Nat.lt_mul_div_succ (m * 10 ^ p) hpos
    rw [heq] at h
    have hmul := Nat.mul_le_mul_right (10 ^ p) hfraction
    have hexpand : 2 ^ r * (n * 10 ^ p + 1) = n * 2 ^ r * 10 ^ p + 2 ^ r := by
      rw [Nat.mul_add, Nat.mul_one, Nat.mul_left_comm, Nat.mul_assoc]
    rw [hexpand] at h
    rw [Nat.add_mul, Nat.one_mul] at hmul
    omega
  -- the number of binary digits before the point
  have hone : 2 ^ r ≤ m := Nat.le_trans (Nat.le_mul_of_pos_left _ (Nat.pos_of_ne_zero hn)) hbelow
  have hlog : r ≤ m.log2 := (Nat.le_log2 hm0).mpr hone
  have hlog52 := log2_le hlt
  obtain ⟨b, hb⟩ : ∃ b, m.log2 = r + b := ⟨m.log2 - r, by omega⟩
  obtain ⟨habove, hdigits⟩ := power_bounds b (by omega)
  have hfloor : m < 2 ^ r * 10 ^ (b * 30103 / 100000 + 2) := by
    have hlt' : m < 2 ^ (m.log2 + 1) := Nat.lt_log2_self
    rw [hb, Nat.add_assoc, Nat.pow_add] at hlt'
    exact Nat.lt_of_lt_of_le hlt' (Nat.mul_le_mul_left _ habove)
  have hmagnitude : (ofBinary m (-(r : Int))).magnitude ≤ ((b * 30103 / 100000 + 2 : Nat) : Int) := by
    rw [magnitude_ofBinary hm0]
    refine magnitudeFrom_le (floorAt_eq_zero hfloor) 8 ?_
    omega
  have hp' : 10 ^ (16 - b * 30103 / 100000) ≤ 10 ^ p := Nat.pow_le_pow_right (by decide) (by omega)
  have hr : 2 ^ r ≤ 2 ^ (52 - b) := Nat.pow_le_pow_right (by decide) (by omega)
  omega

/-- **The shortest digits of a number with a fraction go past the point.** -/
theorem shortest_exponent_neg (hm : m % 2 ^ r ≠ 0) (hlt : m < 2 ^ 53) :
    (shortest m (-(r : Int))).exponent < 0 := by
  refine Int.not_le.mp fun hwhole => ?_
  unfold shortest at hwhole
  dsimp only at hwhole
  have hcases := firstHit_cases (ofBinary m (-(r : Int))) (ofBinary m (-(r : Int))).magnitude 17 1
  generalize (ofBinary m (-(r : Int))).firstHit (ofBinary m (-(r : Int))).magnitude 17 1 = s at hwhole hcases
  obtain ⟨j, hexponent, hcoefficient, hstripped⟩ := stripZeros_eq 20 s
  rw [hexponent] at hwhole
  obtain ⟨n, hn⟩ := whole_of_stripped hcoefficient hwhole
  rcases hcases with hadmits | hlast
  · -- digits that read back lie between the ends, where no whole number is
    obtain ⟨hlow, hhigh⟩ := admits_le hadmits
    rw [hn, Nat.mul_right_comm] at hlow hhigh
    have hunit : 0 < 10 ^ (-s.exponent).toNat := Nat.pow_pos (by decide)
    exact not_whole_between hm n ⟨Nat.le_of_mul_le_mul_right hlow hunit, Nat.le_of_mul_le_mul_right hhigh hunit⟩
  · -- all seventeen digits were tried in vain, and the number is cut off after them
    have hmagnitude : (ofBinary m (-(r : Int))).magnitude ≤ (17 : Nat) := by
      have hlog := log2_le hlt
      have hpos := Nat.two_pow_pos r
      rw [magnitude_ofBinary fun h0 => hm (by rw [h0, Nat.zero_mod])]
      refine magnitudeFrom_le (floorAt_eq_zero ?_) 8 (by omega)
      calc m < 1 * 10 ^ 17 := by omega
        _ ≤ 2 ^ r * 10 ^ 17 := Nat.mul_le_mul_right _ hpos
    obtain ⟨p, hp⟩ := Int.eq_ofNat_of_zero_le (show 0 ≤ 18 - (ofBinary m (-(r : Int))).magnitude by omega)
    obtain rfl : s = ⟨m * 10 ^ p / 2 ^ r, -(p : Int)⟩ := by
      have hexp : (ofBinary m (-(r : Int))).magnitude - ((1 + 17 : Nat) : Int) = -(p : Int) := by omega
      rw [hlast, hexp, floorAt_ofBinary]
    have hj : 0 < j := by
      dsimp only at hwhole
      omega
    dsimp only at hn hstripped
    rw [show (-(p : Int)).toNat = 0 by omega, show (-(-(p : Int))).toNat = p by omega, Nat.pow_zero,
      Nat.mul_one] at hn
    refine floorAt_ne_whole hm hlt (fun hzero => hstripped hj ?_) hp hn
    rw [hn, hzero, Nat.zero_mul]

end Scientific

/-! ## Written numbers -/

/-- A nonempty run of digits. -/
def IsDigits (ds : List Char) : Prop := ds ≠ [] ∧ ∀ d ∈ ds, isDigit d = true

/-- The digits of a number are digits. -/
theorem isDigits_digits (n : Nat) : IsDigits (digits n) :=
  ⟨Nat.toDigits_ne_nil, fun _ hd => Nat.isDigit_of_mem_toDigits (by decide) (by decide) hd⟩

theorem isDigits_zero : IsDigits ['0'] := ⟨nofun, List.forall_mem_singleton.mpr (by decide)⟩

/-- Digits past the point stand on both sides of it. -/
theorem positional_of_neg {s : Scientific} (h : s.exponent < 0) :
    ∃ ds fs, IsDigits ds ∧ IsDigits fs ∧ positional s = ds ++ '.' :: fs := by
  obtain ⟨hne, hdigits⟩ := isDigits_digits s.coefficient
  unfold positional
  dsimp only
  rw [if_neg (by omega)]
  split
  · rename_i hplaces
    refine ⟨_, _, ⟨?_, fun d hd => hdigits d (List.mem_of_mem_take hd)⟩,
      ⟨?_, fun d hd => hdigits d (List.mem_of_mem_drop hd)⟩, rfl⟩
    · refine List.ne_nil_of_length_pos ?_
      rw [List.length_take]
      omega
    · refine List.ne_nil_of_length_pos ?_
      rw [List.length_drop]
      omega
  · refine ⟨['0'], _, isDigits_zero, ⟨by simp [hne], fun d hd => ?_⟩, rfl⟩
    rcases List.mem_append.mp hd with hd | hd
    · rw [(List.mem_replicate.mp hd).2]
      decide
    · exact hdigits d hd

theorem ofFloat?_bound {x : Float} {d : Binary} (h : Binary.ofFloat? x = some d) : d.m < 2 ^ 53 := by
  have hfraction : x.toBits.toNat % twoTo 52 < 2 ^ 52 := Nat.mod_lt _ (by decide)
  unfold Binary.ofFloat? at h
  dsimp only at h
  split at h
  · nomatch h
  · split at h
    · obtain rfl := Option.some.inj h
      dsimp only
      omega
    · obtain rfl := Option.some.inj h
      show _ + 2 ^ 52 < 2 ^ 53
      omega

/-- **A finite float without a sign is written with digits on both sides of a point.** -/
theorem write_value_unsigned {x : Float} {d : Binary} (hx : Unsigned x) (hd : Binary.ofFloat? x = some d) :
    ∃ ds fs, IsDigits ds ∧ IsDigits fs ∧ (Layout.value.write x).toList = ds ++ '.' :: fs := by
  have hwrite : (Layout.value.write x).toList = Layout.value.magnitude d := by
    unfold Layout.write
    rw [hd]
    dsimp only
    rw [hx.neg_eq_false hd, String.toList_ofList]
    rfl
  rw [hwrite]
  unfold Layout.magnitude
  by_cases hm : d.m = 0
  · rw [if_pos hm]
    exact ⟨['0'], ['0'], isDigits_zero, isDigits_zero, rfl⟩
  rw [if_neg hm]
  dsimp only [Layout.value]
  simp only [Bool.false_and, Bool.false_eq_true, if_false]
  cases hwhole : d.isWhole with
  | true => exact ⟨digits d.truncMagnitude, ['0'], isDigits_digits _, isDigits_zero, rfl⟩
  | false =>
    unfold Binary.isWhole twoTo at hwhole
    simp only [Bool.or_eq_false_iff, decide_eq_false_iff_not, Int.not_le, beq_eq_false_iff_ne] at hwhole
    obtain ⟨hq, hfraction⟩ := hwhole
    have hr : d.q = -((-d.q).toNat : Int) := by omega
    refine positional_of_neg ?_
    rw [hr]
    exact Scientific.shortest_exponent_neg hfraction (ofFloat?_bound hd)

/-! ## Whole numbers -/

theorem splitSign_digits {ds : List Char} (hds : IsDigits ds) (tail : List Char) :
    splitSign (ds ++ tail) = (false, ds ++ tail) := by
  obtain ⟨d, ds', rfl⟩ := List.exists_cons_of_ne_nil hds.1
  have hd := hds.2 d List.mem_cons_self
  unfold splitSign
  split
  · rename_i heq
    obtain ⟨rfl, -⟩ := List.cons.inj heq
    nomatch hd
  · rename_i heq
    obtain ⟨rfl, -⟩ := List.cons.inj heq
    nomatch hd
  · rfl

theorem readInt64_nonneg {cs : List Char} {n : Int64} (hsign : splitSign cs = (false, cs))
    (h : readInt64 cs = some n) : 0 ≤ n.toInt := by
  unfold readInt64 readInt at h
  rw [hsign] at h
  obtain ⟨k, hk, hfits⟩ := Option.bind_eq_some_iff.mp h
  obtain ⟨m, -, rfl⟩ := Option.map_eq_some_iff.mp hk
  split at hfits
  · rename_i hrange
    unfold Binary.signed fitsInt minInt maxInt at hrange
    simp only [Bool.false_eq_true, if_false, Bool.and_eq_true, decide_eq_true_eq] at hrange
    obtain rfl := Option.some.inj hfits
    show 0 ≤ (Int64.ofInt (m : Int)).toInt
    rw [Int64.toInt_ofInt_of_le (by omega) (by omega)]
    omega
  · nomatch hfits

/-- **A whole number is read back**, unless it is negative. -/
theorem readInt64_digits {n : Int64} (hn : 0 ≤ n.toInt) : readInt64 (digits n.toInt.toNat) = some n := by
  have hds := isDigits_digits n.toInt.toNat
  have hsign : splitSign (digits n.toInt.toNat) = (false, digits n.toInt.toNat) := by
    have := splitSign_digits hds []
    rwa [List.append_nil] at this
  have hnat : readNat (digits n.toInt.toNat) = some n.toInt.toNat := by
    unfold readNat
    rw [if_pos ⟨hds.1, List.all_eq_true.mpr hds.2⟩]
    exact congrArg some Nat.ofDigitChars_ten_toDigits
  have hfits : fitsInt n.toInt = true := by
    have hlow := n.le_toInt
    have hhigh := n.toInt_lt
    unfold fitsInt minInt maxInt
    simp only [Bool.and_eq_true, decide_eq_true_eq]
    omega
  unfold readInt64 readInt
  rw [hsign]
  dsimp only
  rw [hnat]
  show (if fitsInt (n.toInt.toNat : Int) then some (Int64.ofInt (n.toInt.toNat : Int)) else none) = _
  rw [Int.toNat_of_nonneg hn, if_pos hfits, Int64.ofInt_toInt]

theorem toString_toList {n : Int} (hn : 0 ≤ n) : (toString n).toList = digits n.toNat := by
  obtain ⟨m, rfl⟩ := Int.eq_ofNat_of_zero_le hn
  show (toString m).toList = digits m
  rw [Nat.toString_eq_ofList_toDigits, String.toList_ofList]
  rfl

end Helios.Decimal
