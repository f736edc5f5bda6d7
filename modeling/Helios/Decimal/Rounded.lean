import Helios.Decimal.Shortest

/-!
# A fixed number of digits

A double written with at most so many significant digits: the nearest decimal with that many, ties to
the even one, without trailing zeros.
-/

namespace Helios.Decimal

/-- `n / d` to the nearest whole number, ties to the even one. -/
def roundEven (n d : Nat) : Nat :=
  let q := n / d
  let r := n % d
  if 2 * r < d then q else if d < 2 * r then q + 1 else if q % 2 = 0 then q else q + 1

/-- `m · 2 ^ q · 10 ^ k` as numerator and denominator. -/
def scaled (m : Nat) (q k : Int) : Nat × Nat :=
  (m * twoTo q.toNat * tenTo k.toNat, twoTo (-q).toNat * tenTo (-k).toNat)

/-- `⌊log₁₀ (m · 2 ^ q)⌋` for a positive significand, from an estimate that is at most one too
    large. -/
def floorLog10 (m : Nat) (q : Int) : Int :=
  let guess : Int := ((m.log2 + q) * 30103).fdiv 100000 + 1
  let (n, d) := scaled m q (-guess)
  if d ≤ n then guess else
    let (n, d) := scaled m q (1 - guess)
    if d ≤ n then guess - 1 else guess - 2

/-- Exactly `digits` significant digits of `m · 2 ^ q`, and the power of ten of the first of them. -/
def significant (digits : Nat) (m : Nat) (q : Int) : Nat × Int :=
  let e := floorLog10 m q
  let (n, d) := scaled m q (digits - 1 - e)
  let c := roundEven n d
  if c = tenTo digits then (tenTo (digits - 1), e + 1) else (c, e)

/-- Digits without trailing zeros. -/
def dropZeros (ds : List Char) : List Char := (ds.reverse.dropWhile (· = '0')).reverse

/-- A fraction with its point, nothing if it is empty. -/
def withPoint (ds : List Char) : List Char := if ds.isEmpty then [] else '.' :: ds

/-- The text of a positive number: positional from `10 ^ -4` up to `digits` places, with a power of
    ten of at least two digits otherwise. -/
def writeRounded (digits : Nat) (m : Nat) (q : Int) : List Char :=
  let (c, e) := significant digits m q
  let ds := (toString c).toList
  if e < -4 ∨ (digits : Int) ≤ e then
    let power := (toString e.natAbs).toList
    let power := if power.length < 2 then '0' :: power else power
    ds.take 1 ++ withPoint (dropZeros (ds.drop 1)) ++ ['e', if e < 0 then '-' else '+'] ++ power
  else if e < 0 then
    '0' :: withPoint (dropZeros (List.replicate (-e - 1).toNat '0' ++ ds))
  else
    let whole := e.toNat + 1
    ds.take whole ++ withPoint (dropZeros (ds.drop whole))

end Helios.Decimal
