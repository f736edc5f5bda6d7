import Helios.Builtin.Args

/-!
# Built-in functions on numbers
-/

namespace Helios.Builtin

open Decimal (Binary clampInt floatOfInt)

/-- The integer that `round` makes of a finite float; other floats have none. -/
def toInt (function : String) (round : Binary → Int) (x : Float) : Except Cause Value :=
  match Binary.ofFloat? x with
  | some d => .ok (.int (clampInt (round d)))
  | none => .error (.value (.notAnInt function (Decimal.Layout.plain.write x)))

/-- `abs(x)`. -/
def abs : PureBody := fun args => do
  match ← arg args 0 with
  | .int n => pure (Value.exactOr n.toInt.natAbs (floatOfInt n).abs)
  | .float x => pure (.float x.abs)
  | v => throw (wrongType "abs" "a number" 0 v)

/-- The first of `best :: rest` that is on the wanted side of all before it. -/
def extremeOf (wanted : Ordering) (best : Value) : List Value → Except Cause Value
  | [] => pure best
  | v :: rest => do
    let o ← Value.compare v best
    extremeOf wanted (if o == wanted then v else best) rest

/-- `min` and `max`: of the items of a single list, or of the arguments. -/
def extreme (function : String) (wanted : Ordering) : PureBody := fun args =>
  let items := match args with
    | [.list items] => items
    | _ => args
  match items with
  | [] => .error (.value (.ofEmptyList function))
  | first :: rest => extremeOf wanted first rest

/-- `floor`, `ceil` and the one-argument `round`: integers stay as they are. -/
def toWhole (function : String) (round : Binary → Int) : PureBody := fun args => do
  match ← arg args 0 with
  | .int n => pure (.int n)
  | _ => toInt function round (← numArg function args 0)

/-- `round(x)` to an integer, or `round(x, digits)` to decimal places. -/
def round : PureBody := fun args => do
  let x ← numArg "round" args 0
  if args.length = 2 then
    let digits ← intArg "round" args 1
    let scale := Decimal.powInt 10.0 (max (-300) (min 300 digits.toInt))
    pure (.float (Decimal.roundFloat (x * scale) / scale))
  else toWhole "round" Binary.round args

/-- `sqrt(x)`. -/
def sqrt : PureBody := fun args => do
  let x ← numArg "sqrt" args 0
  if x < 0.0 then throw (.value .negativeRoot) else pure (.float x.sqrt)

/-- `b ^ e` when it fits 64 bits. Beyond 63 factors only powers of 0, 1 and -1 do. -/
def powExact? (b : Int) (e : Nat) : Option Int :=
  if e < 64 then if Decimal.fitsInt (Int.pow b e) then some (Int.pow b e) else none
  else if b = 0 ∨ b = 1 then some b
  else if b = -1 then some (if e % 2 = 0 then 1 else -1)
  else none

/-- The exact power of two integers with an exponent of at most 32 bits, if it fits. -/
def powInts? : Value → Value → Option Value
  | .int b, .int e =>
    if 0 ≤ e.toInt ∧ e.toInt < 0x100000000 then
      (powExact? b.toInt e.toInt.toNat).map fun n => .int (Int64.ofInt n)
    else none
  | _, _ => none

/-- `pow(b, e)`. -/
def pow : PureBody := fun args => do
  match powInts? (← arg args 0) (← arg args 1) with
  | some v => pure v
  | none =>
    let b ← numArg "pow" args 0
    let e ← numArg "pow" args 1
    pure (.float (b.pow e))

/-- `time()` shows the clock on the wall. -/
def time (wall : Float) : PureBody := fun _ => .ok (.float wall)

/-- `sleep(seconds)` waits; how long is not part of the answer. Zero and less do not wait. -/
def sleep : PureBody := fun args => do
  let s ← numArg "sleep" args 0
  if s >= 18446744073709551616.0 then throw (.value (.sleepTooLong (Decimal.Layout.plain.write s)))
  else pure .nil

end Helios.Builtin
