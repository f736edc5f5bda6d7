import Helios.Decimal.Binary

/-!
# Reading numbers

The text of an integer is an optional sign and digits. The text of a float adds a fraction, a power of
ten and the names of the infinities and of NaN. Every reader takes the whole text or nothing.
-/

namespace Helios.Decimal

/-- An ASCII decimal digit. -/
def isDigit (c : Char) : Bool := '0' ≤ c && c ≤ '9'

/-- The number a run of decimal digits denotes. -/
def natOfDigits (cs : List Char) : Nat :=
  cs.foldl (fun n c => 10 * n + (c.toNat - '0'.toNat)) 0

/-- A nonempty run of digits. -/
def readNat (cs : List Char) : Option Nat :=
  if cs ≠ [] ∧ cs.all isDigit then some (natOfDigits cs) else none

/-- An optional sign; `true` for minus. -/
def splitSign : List Char → Bool × List Char
  | '-' :: rest => (true, rest)
  | '+' :: rest => (false, rest)
  | cs => (false, cs)

/-- A whole number with an optional sign. -/
def readInt (cs : List Char) : Option Int :=
  let (neg, body) := splitSign cs
  (readNat body).map (Binary.signed neg)

/-- A 64-bit integer; numbers outside the range do not read. -/
def readInt64 (cs : List Char) : Option Int64 :=
  (readInt cs).bind fun n => if fitsInt n then some (Int64.ofInt n) else none

/-- The double nearest to `c · 10 ^ e`. Beyond the ends of the range of doubles the answer is known
    without computing the power. -/
def floatOfDecimal (c : Nat) (e : Int) : Float :=
  if c = 0 then 0.0
  else
    let size : Int := e + (Nat.toDigits 10 c).length
    if 400 < size then 1.0 / 0.0
    else if size < -400 then 0.0
    else Float.ofScientific c (e < 0) e.natAbs

/-- The power of ten after the digits: nothing, or a mark, an optional sign and digits. -/
def readPower : List Char → Option Int
  | [] => some 0
  | c :: rest => if c = 'e' ∨ c = 'E' then readInt rest else none

/-- Digits with an optional point and an optional power of ten; at least one digit is needed. -/
def readMagnitude (cs : List Char) : Option Float :=
  let whole := cs.takeWhile isDigit
  let rest := cs.dropWhile isDigit
  let (fraction, rest) := match rest with
    | '.' :: tail => (tail.takeWhile isDigit, tail.dropWhile isDigit)
    | _ => ([], rest)
  if whole = [] ∧ fraction = [] then none
  else (readPower rest).map fun e => floatOfDecimal (natOfDigits (whole ++ fraction)) (e - fraction.length)

/-- A float: an optional sign before digits or before `inf`, `infinity` or `nan` in any case. -/
def readFloat (cs : List Char) : Option Float :=
  let (neg, body) := splitSign cs
  let magnitude :=
    match String.ofList (body.map Char.toLower) with
    | "inf" => some (1.0 / 0.0)
    | "infinity" => some (1.0 / 0.0)
    | "nan" => some (0.0 / 0.0)
    | _ => readMagnitude body
  magnitude.map fun x => if neg then -x else x

end Helios.Decimal
