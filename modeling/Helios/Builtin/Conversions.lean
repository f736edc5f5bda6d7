import Helios.Builtin.Numbers
import Helios.Decimal.Read
import Helios.Text.Lines

/-!
# Built-in conversions
-/

namespace Helios.Builtin

/-- `str(x)`. -/
def toStr : PureBody := fun args => do
  pure (.str (← arg args 0).display)

/-- `int(x)`: floats are cut toward zero; strings are read as integers, or else as floats. -/
def int : PureBody := fun args => do
  match ← arg args 0 with
  | .int n => pure (.int n)
  | .float x => toInt "int" Decimal.Binary.trunc x
  | .bool b => pure (.int (if b then 1 else 0))
  | .str s =>
    let cs := Text.trim s.toList
    match Decimal.readInt64 cs with
    | some n => pure (.int n)
    | none =>
      match Decimal.readFloat cs with
      | some x => toInt "int" Decimal.Binary.trunc x
      | none => throw (.value (.invalidNumber "int" s))
  | v => throw (wrongType "int" "a number, bool or string" 0 v)

/-- `float(x)`. -/
def float : PureBody := fun args => do
  match ← arg args 0 with
  | .int n => pure (.float (Decimal.floatOfInt n))
  | .float x => pure (.float x)
  | .bool b => pure (.float (if b then 1.0 else 0.0))
  | .str s =>
    match Decimal.readFloat (Text.trim s.toList) with
    | some x => pure (.float x)
    | none => throw (.value (.invalidNumber "float" s))
  | v => throw (wrongType "float" "a number, bool or string" 0 v)

/-- `bool(x)`. -/
def bool : PureBody := fun args => do
  pure (.bool (← arg args 0).truthy)

/-- `type(x)`. -/
def typeOf : PureBody := fun args => do
  pure (.str (← arg args 0).typeName)

end Helios.Builtin
