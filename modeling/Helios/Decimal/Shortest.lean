import Helios.Decimal.Binary

/-!
# Shortest decimal digits

The digits written for a double are the fewest that read back as that double and, of those, the
nearest to its value. Every real number between the midpoints to the two neighbouring doubles reads
back as the double; the midpoints themselves do exactly when the significand is even. For one digit,
two digits, and so on, the two decimal numbers around the value are tested against that interval in
whole-number arithmetic. Seventeen digits always suffice.
-/

namespace Helios.Decimal

/-- **A positive decimal number** `coefficient · 10 ^ exponent`. -/
structure Scientific where
  coefficient : Nat
  exponent : Int
  deriving DecidableEq, Repr, Inhabited

/-- The reals that read back as a double, as numerators over one common denominator. -/
structure Interval where
  low : Nat
  value : Nat
  high : Nat
  denominator : Nat
  closed : Bool
  deriving Repr, Inhabited

namespace Interval

/-- The interval of a nonzero significand `m` and exponent `q`. Below a power of two the neighbouring
    double is only half as far. -/
def ofBinary (m : Nat) (q : Int) : Interval :=
  let below := if m = twoTo 52 ∧ q ≠ Binary.minExponent then 1 else 2
  let k := q - 2
  let up := twoTo k.toNat
  ⟨(4 * m - below) * up, 4 * m * up, (4 * m + 2) * up, twoTo (-k).toNat, m % 2 = 0⟩

/-- Whether `c · 10 ^ e` lies in the interval. -/
def admits (i : Interval) (c : Nat) (e : Int) : Bool :=
  let n := c * tenTo e.toNat * i.denominator
  let s := tenTo (-e).toNat
  if i.closed then i.low * s ≤ n && n ≤ i.high * s else i.low * s < n && n < i.high * s

/-- The value in units of `10 ^ e`, rounded down. -/
def floorAt (i : Interval) (e : Int) : Nat :=
  i.value * tenTo (-e).toNat / (i.denominator * tenTo e.toNat)

/-- Whether the value is nearer to `c` than to `c + 1`, in units of `10 ^ e`. A value halfway between
    them counts as nearer to `c + 1`. -/
def nearerBelow (i : Interval) (c : Nat) (e : Int) : Bool :=
  2 * i.value * tenTo (-e).toNat < (2 * c + 1) * (i.denominator * tenTo e.toNat)

/-- The exponent `k` with `10 ^ (k - 1) ≤ value < 10 ^ k`, searched upward from a lower bound. -/
def magnitudeFrom (i : Interval) : Nat → Int → Int
  | 0, k => k
  | fuel + 1, k => if i.floorAt k = 0 then k else magnitudeFrom i fuel (k + 1)

/-- The number of digits before the point of the value (negative for zeros after it). The search
    starts below the estimate that the lengths of numerator and denominator give. -/
def magnitude (i : Interval) : Int :=
  let bits : Int := (i.value.log2 : Int) - (i.denominator.log2 : Int)
  i.magnitudeFrom 8 (bits * 30103 / 100000 - 2)

/-- The first of the grids of `n`, `n + 1`, … digits on which one of the value's two neighbours reads
    back, and that neighbour. -/
def firstHit (i : Interval) (k : Int) : Nat → Nat → Scientific
  | 0, n => ⟨i.floorAt (k - n), k - n⟩
  | fuel + 1, n =>
    let e := k - n
    let c := i.floorAt e
    match i.admits c e, i.admits (c + 1) e with
    | true, true => if i.nearerBelow c e then ⟨c, e⟩ else ⟨c + 1, e⟩
    | true, false => ⟨c, e⟩
    | false, true => ⟨c + 1, e⟩
    | false, false => firstHit i k fuel (n + 1)

end Interval

namespace Scientific

/-- Move trailing zeros of the coefficient into the exponent. -/
def stripZeros : Nat → Scientific → Scientific
  | 0, s => s
  | fuel + 1, s =>
    if s.coefficient ≠ 0 ∧ s.coefficient % 10 = 0 then
      stripZeros fuel ⟨s.coefficient / 10, s.exponent + 1⟩
    else s

/-- The shortest decimal number that reads back as `m · 2 ^ q`, for a nonzero significand. -/
def shortest (m : Nat) (q : Int) : Scientific :=
  let i := Interval.ofBinary m q
  stripZeros 20 (i.firstHit i.magnitude 17 1)

end Scientific

end Helios.Decimal
