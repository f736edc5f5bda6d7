import Helios.Decimal.Shortest

/-!
# How floats are written

The shortest digits are laid out around a decimal point. A `Layout` collects the choices of one
written form: whether whole numbers keep `.0`, whether they show all their digits or the shortest
ones followed by zeros, and whether very large and very small numbers take a power of ten.
-/

namespace Helios.Decimal

/-- **The choices of one written form of floats.** -/
structure Layout where
  /-- Whole numbers are followed by `.0`. -/
  pointZero : Bool
  /-- Whole numbers show every digit of their value, not only the shortest digits. -/
  exactWhole : Bool
  /-- Numbers of at least `10 ^ 16` or below `10 ^ (-4)` are written with a power of ten. -/
  powers : Bool
  deriving Repr

/-- The digits of a whole number. -/
def digits (n : Nat) : List Char := Nat.toDigits 10 n

/-- `c · 10 ^ e` in positional writing, without a point when it is a whole number. -/
def positional (s : Scientific) : List Char :=
  let ds := digits s.coefficient
  if 0 ≤ s.exponent then ds ++ List.replicate s.exponent.toNat '0'
  else
    let places := (-s.exponent).toNat
    if places < ds.length then ds.take (ds.length - places) ++ '.' :: ds.drop (ds.length - places)
    else '0' :: '.' :: (List.replicate (places - ds.length) '0' ++ ds)

/-- `d.ddd` times a power of ten, written `d.ddde±x` with neither a plus sign nor padding. -/
def withPower (s : Scientific) : List Char :=
  let ds := digits s.coefficient
  let power := s.exponent + (ds.length - 1 : Nat)
  let body := match ds with
    | d :: [] => [d]
    | d :: rest => d :: '.' :: rest
    | [] => []
  let mark := if power < 0 then ['e', '-'] else ['e']
  body ++ mark ++ digits power.natAbs

namespace Layout

/-- The magnitude of a finite number. -/
def magnitude (l : Layout) (d : Binary) : List Char :=
  if d.m = 0 then if l.pointZero then ['0', '.', '0'] else ['0']
  else
    let s := Scientific.shortest d.m d.q
    let size := s.exponent + (digits s.coefficient).length
    if l.powers && (16 < size || size < -3) then withPower s
    else if d.isWhole then
      let whole := if l.exactWhole then digits d.truncMagnitude else positional s
      if l.pointZero then whole ++ ['.', '0'] else whole
    else positional s

/-- Write a float: the sign, also of zero, then the magnitude. -/
def write (l : Layout) (x : Float) : String :=
  match Binary.ofFloat? x with
  | some d => String.ofList ((if d.neg then ['-'] else []) ++ l.magnitude d)
  | none => if x.isNaN then "NaN" else if x < 0.0 then "-inf" else "inf"

/-- Numbers in messages: positional, and whole numbers without a point. -/
def plain : Layout := ⟨false, false, false⟩

/-- Numbers as values: never a power of ten, and whole numbers in full and with `.0`. -/
def value : Layout := ⟨true, true, false⟩

/-- Numbers in syntax trees: whole numbers with `.0`, and powers of ten at both ends. -/
def tree : Layout := ⟨true, false, true⟩

end Layout

end Helios.Decimal
