import Helios.Value.Arith

/-!
# Arguments of built-in functions

Bodies of built-in functions read their arguments by place and type. The number of arguments is checked
before a body runs, so a place that a body reads is always filled; a body that broke this rule would
show as `Cause.broken`.
-/

namespace Helios.Builtin

/-- A body that depends on its arguments only. -/
abbrev PureBody := List Value → Except Cause Value

/-- The argument at a place. -/
def arg (args : List Value) (i : Nat) : Except Cause Value := Value.itemAt args i

/-- The failure that an argument has the wrong type. -/
def wrongType (function wanted : String) (i : Nat) (got : Value) : Cause :=
  .type (.argument function wanted i got.typeName)

/-- A string argument. -/
def strArg (function : String) (args : List Value) (i : Nat) : Except Cause String := do
  match ← arg args i with
  | .str s => pure s
  | v => throw (wrongType function "a string" i v)

/-- An integer argument; a whole float will do. -/
def intArg (function : String) (args : List Value) (i : Nat) : Except Cause Int64 := do
  match ← arg args i with
  | .int n => pure n
  | .float x =>
    if Decimal.isWhole x then pure (Decimal.intOfWhole x)
    else throw (wrongType function "an integer" i (.float x))
  | v => throw (wrongType function "an integer" i v)

/-- A number argument, as a float. -/
def numArg (function : String) (args : List Value) (i : Nat) : Except Cause Float := do
  let v ← arg args i
  match v.asFloat? with
  | some x => pure x
  | none => throw (wrongType function "a number" i v)

/-- A list argument. -/
def listArg (function : String) (args : List Value) (i : Nat) : Except Cause (List Value) := do
  match ← arg args i with
  | .list items => pure items
  | v => throw (wrongType function "a list" i v)

/-- A dict argument. -/
def dictArg (function : String) (args : List Value) (i : Nat) :
    Except Cause (List (Value × Value)) := do
  match ← arg args i with
  | .dict pairs => pure pairs
  | v => throw (wrongType function "a dict" i v)

/-- The largest list or string, in items or bytes, that a built-in function makes up. -/
def maxBuilt : Nat := 0x1000000

end Helios.Builtin
