import Helios.Decimal.Binary

/-!
# Values of the guest language

Tables and functions are known by their numbers in a heap. As a key of a table, a float without fraction
stands for the integer of the same value.
-/

namespace Helios.Guest

/-- **The values of the guest language.** -/
inductive Val
  | nil
  | bool (b : Bool)
  | int (n : Int64)
  | float (x : Float)
  | str (bytes : List UInt8)
  | table (id : Nat)
  | function (id : Nat)
  deriving Repr, Inhabited

namespace Val

/-- The name of a value's type. -/
def typeName : Val → String
  | nil => "nil"
  | bool _ => "boolean"
  | int _ | float _ => "number"
  | str _ => "string"
  | table _ => "table"
  | function _ => "function"

/-- Everything but `nil` and `false` counts as true. -/
def truthy : Val → Bool
  | nil => false
  | bool b => b
  | _ => true

/-- A string value. -/
def ofString (s : String) : Val := str s.toUTF8.toList

/-- The integer that a float without fraction is equal to, when it fits. -/
def wholeFloat? (x : Float) : Option Int64 :=
  match Decimal.Binary.ofFloat? x with
  | some d => if d.isWhole && Decimal.fitsInt d.trunc then some (Int64.ofInt d.trunc) else none
  | none => none

/-- Equality. An integer and a float are compared by value. -/
def equal : Val → Val → Bool
  | nil, nil => true
  | bool a, bool b => a == b
  | int a, int b => a == b
  | float a, float b => a == b
  | int a, float b => wholeFloat? b == some a
  | float a, int b => wholeFloat? a == some b
  | str a, str b => a == b
  | table a, table b => a == b
  | function a, function b => a == b
  | _, _ => false

/-- A key as tables keep it. -/
def toKey : Val → Val
  | float x =>
    match wholeFloat? x with
    | some n => int n
    | none => float x
  | v => v

end Val

end Helios.Guest
