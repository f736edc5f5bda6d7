import Helios.Value

/-!
# Arithmetic and comparison

Integer operations stay integral while the exact result fits 64 bits and go on in floats when it does
not; an operand that is a float makes the result a float; `/` always gives a float. `+` also joins two
strings or two lists. Two numbers, or two strings, can be compared.
-/

namespace Helios.Value

open Decimal (fitsInt floatOfInt)

/-- The integer `n`, or else the float `x` when `n` does not fit. -/
def exactOr (n : Int) (x : Float) : Value :=
  if fitsInt n then int (Int64.ofInt n) else float x

/-- An operation on numbers, given by its exact result on integers and its result on floats. -/
def numeric (symbol : String) (onInts : Int → Int → Int) (onFloats : Float → Float → Float)
    (a b : Value) : Except Cause Value :=
  match a, b with
  | int m, int n =>
    .ok (exactOr (onInts m.toInt n.toInt) (onFloats (floatOfInt m) (floatOfInt n)))
  | a, b =>
    match a.asFloat?, b.asFloat? with
    | some x, some y => .ok (float (onFloats x y))
    | _, _ => .error (.type (.operands symbol a.typeName b.typeName))

/-- `a + b`. -/
def add (a b : Value) : Except Cause Value :=
  match a, b with
  | str s, str t => .ok (str (s ++ t))
  | list xs, list ys => .ok (list (xs ++ ys))
  | str _, _ | _, str _ => .error (.type (.addToText a.typeName b.typeName))
  | _, _ => numeric "+" (· + ·) (· + ·) a b

/-- `a - b`. -/
def sub (a b : Value) : Except Cause Value := numeric "-" (· - ·) (· - ·) a b

/-- `a * b`. -/
def mul (a b : Value) : Except Cause Value := numeric "*" (· * ·) (· * ·) a b

/-- `a / b`, a float. -/
def div (a b : Value) : Except Cause Value :=
  match a.asFloat?, b.asFloat? with
  | some x, some y => if y == 0.0 then .error (.value .divisionByZero) else .ok (float (x / y))
  | _, _ => .error (.type (.operands "/" a.typeName b.typeName))

/-- The quotient that goes with the Euclidean remainder does not fit 64 bits. -/
def quotientOverflows (a b : Int64) : Bool := a.toInt == Decimal.minInt && b.toInt == -1

/-- `a % b`, the Euclidean remainder. An integer remainder needs a quotient that fits. -/
def rem (a b : Value) : Except Cause Value :=
  match a, b.asFloat? with
  | int m, some y =>
    if y == 0.0 then .error (.value .moduloByZero)
    else match b with
      | int n =>
        if quotientOverflows m n then .ok (float (Decimal.modFloat (floatOfInt m) y))
        else .ok (int (Int64.ofInt (m.toInt % n.toInt)))
      | _ => .ok (float (Decimal.modFloat (floatOfInt m) y))
  | float x, some y =>
    if y == 0.0 then .error (.value .moduloByZero) else .ok (float (Decimal.modFloat x y))
  | _, _ => .error (.type (.operands "%" a.typeName b.typeName))

/-- `-a`. -/
def neg : Value → Except Cause Value
  | int n => .ok (exactOr (-n.toInt) (-(floatOfInt n)))
  | float x => .ok (float (-x))
  | v => .error (.type (.negate v.typeName))

/-- The order of two floats; a NaN counts as equal to everything. -/
def compareFloats (x y : Float) : Ordering :=
  if x < y then .lt else if y < x then .gt else .eq

/-- The order of two numbers, taken as floats, or of two strings. -/
def compare (a b : Value) : Except Cause Ordering :=
  match a, b with
  | str s, str t => .ok (Ord.compare s t)
  | a, b =>
    match a.asFloat?, b.asFloat? with
    | some x, some y => .ok (compareFloats x y)
    | _, _ => .error (.type (.compare a.typeName b.typeName))

/-! ## Indexing -/

/-- The place in a sequence of length `n` that the index `i` names; negative indices count from the
    end. -/
def place? (i : Int) (n : Nat) : Option Nat :=
  let j := if i < 0 then i + n else i
  if 0 ≤ j ∧ j < n then some j.toNat else none

/-- The place that an index names, or the failure that it is out of range. -/
def resolveIndex (i : Int64) (n : Nat) : Except Cause Nat :=
  match place? i.toInt n with
  | some j => .ok j
  | none => .error (.value (.indexOutOfRange i.toInt n))

/-- The item at a place that must exist. -/
def itemAt {α : Type} (items : List α) (j : Nat) : Except Cause α :=
  match items[j]? with
  | some a => .ok a
  | none => .error .broken

/-- The items from place `i` to before place `j`, which must exist. -/
def itemsBetween {α : Type} (items : List α) (i j : Nat) : Except Cause (List α) :=
  if i ≤ j ∧ j ≤ items.length then .ok ((items.take j).drop i) else .error .broken

/-- `v[i]` for lists, strings and dicts. -/
def index (v i : Value) : Except Cause Value :=
  match v, i with
  | list items, int n => do
    let j ← resolveIndex n items.length
    itemAt items j
  | str s, int n => do
    let cs := s.toList
    let j ← resolveIndex n cs.length
    let c ← itemAt cs j
    pure (ofChars [c])
  | dict pairs, key =>
    match dictGet? pairs key with
    | some w => .ok w
    | none => .error (.value (.keyNotFound key.repr))
  | list _, other | str _, other => .error (.type (.indexType v.typeName other.typeName))
  | _, _ => .error (.type (.notIndexable v.typeName))

/-- What a `for` loop walks over: items, characters or keys. -/
def iterate : Value → Except Cause (List Value)
  | list items => .ok items
  | str s => .ok (s.toList.map fun c => ofChars [c])
  | dict pairs => .ok (pairs.map Prod.fst)
  | v => .error (.type (.notIterable v.typeName))

/-! ## Operators -/

/-- A binary operator on values; `and` and `or` are decided before their right operand is known. -/
def binary (op : BinOp) (a b : Value) : Except Cause Value :=
  match op with
  | .add => add a b
  | .sub => sub a b
  | .mul => mul a b
  | .div => div a b
  | .rem => rem a b
  | .eq => .ok (bool (eqv a b))
  | .ne => .ok (bool (!eqv a b))
  | .lt => (compare a b).map fun o => bool (o == .lt)
  | .le => (compare a b).map fun o => bool (o != .gt)
  | .gt => (compare a b).map fun o => bool (o == .gt)
  | .ge => (compare a b).map fun o => bool (o != .lt)
  | .and => .ok (bool (a.truthy && b.truthy))
  | .or => .ok (bool (a.truthy || b.truthy))

end Helios.Value
