/-!
# Binary numbers

A finite double is a sign, a significand and a power of two. `Binary.ofFloat?` reads these off the
bits, `Binary.toFloat` puts a representable one back, and the roundings to whole numbers and the
remainder of a division are computed on them exactly, in integers.
-/

namespace Helios.Decimal

/-- Two to the power of `n`. -/
def twoTo (n : Nat) : Nat := Nat.pow 2 n

/-- Ten to the power of `n`. -/
def tenTo (n : Nat) : Nat := Nat.pow 10 n

/-- **A signed binary number** `± m · 2 ^ q`; the sign is kept also for zero. -/
structure Binary where
  neg : Bool
  m : Nat
  q : Int
  deriving DecidableEq, Repr, Inhabited

namespace Binary

/-- The least exponent of a double's significand. -/
def minExponent : Int := -1074

/-- The exact value of a finite double; `none` for infinities and NaN. -/
def ofFloat? (x : Float) : Option Binary :=
  let bits := x.toBits.toNat
  let neg := bits / twoTo 63 == 1
  let e := bits / twoTo 52 % twoTo 11
  let f := bits % twoTo 52
  if e = 2047 then none
  else if e = 0 then some ⟨neg, f, minExponent⟩
  else some ⟨neg, f + twoTo 52, minExponent + (e - 1 : Nat)⟩

/-- `m · 2 ^ k`, dropping the bits that a negative `k` shifts out. -/
def shift (m : Nat) (k : Int) : Nat :=
  if 0 ≤ k then m * twoTo k.toNat else m / twoTo (-k).toNat

/-- The double with this value. Exact when one exists; the callers only pass such numbers. -/
def toFloat (d : Binary) : Float :=
  let sign := if d.neg then twoTo 63 else 0
  if d.m = 0 then Float.ofBits (UInt64.ofNat sign)
  else
    let top : Int := d.m.log2 + d.q
    if -1022 ≤ top then
      let fraction := shift d.m (52 - d.m.log2) - twoTo 52
      Float.ofBits (UInt64.ofNat (sign + (top + 1023).toNat * twoTo 52 + fraction))
    else
      Float.ofBits (UInt64.ofNat (sign + shift d.m (d.q - minExponent)))

/-- A signed whole number. -/
def signed (neg : Bool) (n : Nat) : Int := if neg then -(n : Int) else n

/-- Whether the value is a whole number. -/
def isWhole (d : Binary) : Bool := 0 ≤ d.q || d.m % twoTo (-d.q).toNat == 0

/-- The whole number next to the value in the direction of zero, as a magnitude. -/
def truncMagnitude (d : Binary) : Nat := shift d.m d.q

/-- Toward zero. -/
def trunc (d : Binary) : Int := signed d.neg d.truncMagnitude

/-- Toward minus infinity. -/
def floor (d : Binary) : Int :=
  if d.isWhole || !d.neg then d.trunc else d.trunc - 1

/-- Toward plus infinity. -/
def ceil (d : Binary) : Int :=
  if d.isWhole || d.neg then d.trunc else d.trunc + 1

/-- To the nearest whole number, a half going away from zero; as a magnitude. -/
def roundMagnitude (d : Binary) : Nat :=
  if 0 ≤ d.q then d.truncMagnitude
  else (2 * d.m / twoTo (-d.q).toNat + 1) / 2

/-- To the nearest whole number, a half going away from zero. -/
def round (d : Binary) : Int := signed d.neg d.roundMagnitude

/-- The remainder of `x / y` truncated toward zero, with the sign of `x`, for `y ≠ 0`.
    Both are brought to one exponent, so the result is exact. -/
def rem (x y : Binary) : Binary :=
  let q := min x.q y.q
  let r := (x.m * twoTo (x.q - q).toNat) % (y.m * twoTo (y.q - q).toNat)
  ⟨x.neg, r, q⟩

end Binary

/-! ## Doubles and whole numbers -/

/-- The largest and the least value of a 64-bit integer. -/
def maxInt : Int := 9223372036854775807

@[inherit_doc maxInt]
def minInt : Int := -9223372036854775808

/-- A whole number fits a 64-bit integer. -/
def fitsInt (n : Int) : Bool := minInt ≤ n && n ≤ maxInt

/-- The nearest 64-bit integer: numbers outside the range become its nearer end. -/
def clampInt (n : Int) : Int64 :=
  Int64.ofInt (if n < minInt then minInt else if maxInt < n then maxInt else n)

/-- The double nearest to a 64-bit integer, ties to the even significand. -/
def floatOfInt (n : Int64) : Float := Float.ofInt n.toInt

/-- A finite double without fraction. -/
def isWhole (x : Float) : Bool :=
  match Binary.ofFloat? x with
  | some d => d.isWhole
  | none => false

/-- The 64-bit integer of a whole double; the ends of the range stand for what lies outside. -/
def intOfWhole (x : Float) : Int64 :=
  match Binary.ofFloat? x with
  | some d => clampInt d.trunc
  | none => 0

/-- The nearest whole double, a half going away from zero; the sign of zero is kept, and values
    that are no finite number stay what they are. -/
def roundFloat (x : Float) : Float :=
  match Binary.ofFloat? x with
  | some d => if d.isWhole then x else Binary.toFloat ⟨d.neg, d.roundMagnitude, 0⟩
  | none => x

/-- Remainder of a division truncated toward zero: the sign is that of the dividend. A remainder by
    zero or of an infinity is no number, and a finite number is its own remainder by an infinity. -/
def remFloat (x y : Float) : Float :=
  match Binary.ofFloat? x, Binary.ofFloat? y with
  | some a, some b => if b.m = 0 then 0.0 / 0.0 else (a.rem b).toFloat
  | some _, none => if y.isNaN then y else x
  | none, _ => 0.0 / 0.0

/-- Euclidean remainder of doubles: never negative, unless it is a negative zero. -/
def modFloat (x y : Float) : Float :=
  let r := remFloat x y
  if r < 0.0 then r + y.abs else r

/-- `x ^ n` by repeated squaring from the low bit; `fuel` bounds the number of bits. -/
def powNat (x : Float) : Nat → Nat → Float → Float
  | 0, _, acc => acc
  | fuel + 1, n, acc =>
    let acc := if n % 2 = 1 then acc * x else acc
    if n / 2 = 0 then acc else powNat (x * x) fuel (n / 2) acc

/-- A whole power of a double: the positive power by repeated squaring, inverted at the end for a
    negative exponent. -/
def powInt (x : Float) (n : Int) : Float :=
  let p := powNat x 64 n.natAbs 1.0
  if n < 0 then 1.0 / p else p

/-! ## The length of a vector -/

/-- `√(a² + b²)` for `a ≥ b ≥ 0` of moderate size: the rounded root, corrected once by the exact
    form of what the squares lost. -/
def hypotCore (a b : Float) : Float :=
  let h := (a * a + b * b).sqrt
  let (t1, t2) :=
    if h <= 2.0 * b then
      let delta := h - b
      (a * (2.0 * delta - a), (delta - 2.0 * (a - b)) * delta)
    else
      let delta := h - a
      (2.0 * delta * (a - 2.0 * b), (4.0 * delta - b) * b + delta * delta)
  h - (t1 + t2) / (2.0 * h)

/-- The length of the vector `(x, y)`. Very large and very small lengths are scaled by a power of
    two first, so that the squares neither overflow nor vanish. -/
def hypot (x y : Float) : Float :=
  if x.isInf || y.isInf then 1.0 / 0.0
  else if x.isNaN || y.isNaN then x + y
  else
    let x := x.abs
    let y := y.abs
    let a := if x < y then y else x
    let b := if x < y then x else y
    let small := Binary.toFloat ⟨false, 1, -600⟩
    let tiny := Binary.toFloat ⟨false, 1, -54⟩
    if a > Binary.toFloat ⟨false, 1, 511⟩ then
      if b <= a * tiny then a + b else hypotCore (a * small) (b * small) / small
    else if b < Binary.toFloat ⟨false, 1, -459⟩ then
      if a >= b / tiny then a + b else hypotCore (a / small) (b / small) * small
    else if b <= a * tiny then a + b
    else hypotCore a b

end Helios.Decimal
