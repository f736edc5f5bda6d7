import Helios.Decimal.Read
import Helios.Decimal.Rounded
import Helios.Guest.Small.Syntax
import Helios.Guest.Val
import Helios.Text.Bytes
import Helios.Text.Lines

/-!
# Arithmetic of the small guest language

Integers wrap around at 64 bits. A float operand makes the result a float, and `/` always gives one.
Strings that read as numbers are numbers here, and numbers are strings when they are joined.
-/

namespace Helios.Guest

open Decimal (floatOfInt)
open Helios.Guest.Small (BinOp Const)

namespace Val

/-! ## Conversions -/

/-- The value of a constant. -/
def ofConst : Const → Val
  | .nil => nil
  | .bool b => bool b
  | .int n => int n
  | .float x => float x
  | .str bytes => str bytes

/-- A string as a number: an integer, or else a float. -/
def numberOfBytes? (bytes : List UInt8) : Option Val :=
  let cs := Text.trim (Text.decode ⟨bytes.toArray⟩).toList
  let (neg, body) := Decimal.splitSign cs
  match Decimal.readInt64 cs with
  | some n => some (int n)
  | none =>
    (Decimal.readMagnitude body).map fun x => float (if neg then -x else x)

/-- A value as a number. -/
def number? : Val → Option Val
  | int n => some (int n)
  | float x => some (float x)
  | str bytes => numberOfBytes? bytes
  | _ => none

/-- A number as a float. -/
def asFloat : Val → Float
  | int n => floatOfInt n
  | float x => x
  | _ => 0.0

/-- The text of a float: at most fourteen digits, and a point or a power of ten in any case. -/
def floatText (x : Float) : String :=
  match Decimal.Binary.ofFloat? x with
  | some d =>
    let text := if d.m = 0 then ['0'] else Decimal.writeRounded 14 d.m d.q
    let text := if text.all Char.isDigit then text ++ ['.', '0'] else text
    String.ofList (if d.neg then '-' :: text else text)
  | none => if x.isNaN then (if x.toBits >>> 63 == 1 then "-nan" else "nan")
    else if x < 0.0 then "-inf" else "inf"

/-- The bytes of a value that can be joined. -/
def bytes? : Val → Option (List UInt8)
  | str bytes => some bytes
  | int n => some (toString n.toInt).toUTF8.toList
  | float x => some (floatText x).toUTF8.toList
  | _ => none

/-- The text of a value that is raised as an error. -/
def errorText : Val → String
  | nil => "nil"
  | bool b => if b then "true" else "false"
  | table _ => "table"
  | function _ => "function"
  | v => Text.decode ⟨(v.bytes?.getD []).toArray⟩

/-! ## Operations on numbers -/

/-- The greatest whole float that is not larger. -/
def floorFloat (x : Float) : Float :=
  match Decimal.Binary.ofFloat? x with
  | some d =>
    if d.isWhole then x
    else
      let n := d.floor
      if n = 0 then 0.0 else (Decimal.Binary.mk (n < 0) n.natAbs 0).toFloat
  | none => x

/-- The remainder that has the sign of the divisor. -/
def modFloat (x y : Float) : Float :=
  let r := Decimal.remFloat x y
  if (r < 0.0 && 0.0 < y) || (0.0 < r && y < 0.0) then r + y else r

/-- What goes wrong in arithmetic on numbers. -/
inductive NumberIssue
  | floorDivByZero | modByZero

/-- The wording. -/
def NumberIssue.message : NumberIssue → String
  | floorDivByZero => "attempt to perform 'n//0'"
  | modByZero => "attempt to perform 'n%%0'"

/-- An operation on integers; `none` where the result is a float. -/
def onInts (op : BinOp) (a b : Int64) : Except NumberIssue (Option Int64) :=
  match op with
  | .add => .ok (some (a + b))
  | .sub => .ok (some (a - b))
  | .mul => .ok (some (a * b))
  | .floorDiv =>
    if b = 0 then .error .floorDivByZero else .ok (some (Int64.ofInt (a.toInt.fdiv b.toInt)))
  | .mod => if b = 0 then .error .modByZero else .ok (some (Int64.ofInt (a.toInt.fmod b.toInt)))
  | _ => .ok none

/-- An operation on floats. -/
def onFloats (op : BinOp) (x y : Float) : Float :=
  match op with
  | .add => x + y
  | .sub => x - y
  | .mul => x * y
  | .floorDiv => floorFloat (x / y)
  | .mod => modFloat x y
  | _ => x / y

/-- An operation on two numbers. -/
def arith (op : BinOp) (a b : Val) : Except NumberIssue Val :=
  match a, b with
  | int m, int n => do
    match ← onInts op m n with
    | some k => pure (int k)
    | none => pure (float (onFloats op (floatOfInt m) (floatOfInt n)))
  | a, b => .ok (float (onFloats op a.asFloat b.asFloat))

/-! ## Order -/

/-- A finite number as a fraction over a power of two, which are compared exactly. -/
def binary? : Val → Option Decimal.Binary
  | int n => some ⟨n.toInt < 0, n.toInt.natAbs, 0⟩
  | float x => Decimal.Binary.ofFloat? x
  | _ => none

/-- Whether a number is below another; exact also for an integer and a float. -/
def numberLt (a b : Val) : Bool :=
  match a, b with
  | int m, int n => m < n
  | float x, float y => x < y
  | a, b =>
    match a.binary?, b.binary? with
    | some x, some y =>
      let q := min x.q y.q
      let scale := fun d : Decimal.Binary => Decimal.Binary.signed d.neg (d.m * Decimal.twoTo (d.q - q).toNat)
      scale x < scale y
    | _, _ => a.asFloat < b.asFloat

/-- Bytes in the order of a dictionary. -/
def bytesLt : List UInt8 → List UInt8 → Bool
  | _, [] => false
  | [], _ :: _ => true
  | a :: as, b :: bs => if a = b then bytesLt as bs else a < b

/-- Whether a value is below another, for two numbers or two strings. -/
def lt? (a b : Val) : Option Bool :=
  match a, b with
  | str x, str y => some (bytesLt x y)
  | str _, _ | _, str _ => none
  | a, b => if a.number?.isSome && b.number?.isSome then some (numberLt a b) else none

/-- Whether a value is not above another, for two numbers or two strings. -/
def le? (a b : Val) : Option Bool := (a.lt? b).map fun below => below || a.equal b

/-- The failure to compare two values. -/
def compareMessage (a b : Val) : String :=
  if a.typeName = b.typeName then "attempt to compare two " ++ a.typeName ++ " values"
  else "attempt to compare " ++ a.typeName ++ " with " ++ b.typeName

end Val

end Helios.Guest
