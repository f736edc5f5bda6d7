import Helios.Error
import Helios.Expr

/-!
# Values

What expressions evaluate to. Integers and floats form one numeric domain. Lists and dicts are plain
values; a dict keeps its entries in the order in which they were made. Objects of the host — imported
modules, and functions of a guest language — are known by identity only.

Equality (`Value.eqv`) compares an integer with a float by value, and dicts without regard to the order
of their entries. `Value.same` is finer: it also tells an integer from a float, and finds a NaN equal to
itself.
-/

namespace Helios

/-- The modules that come with the language. -/
inductive ModuleName
  | math | random | time | string
  deriving DecidableEq, Repr, Inhabited

namespace ModuleName

/-- The name a module is imported under. -/
def text : ModuleName → String
  | math => "math"
  | random => "random"
  | time => "time"
  | string => "string"

/-- Every module. -/
def all : List ModuleName := [math, random, time, string]

/-- The module with a given name. -/
def ofText? (s : String) : Option ModuleName := all.find? fun m => m.text == s

end ModuleName

/-- **An object of the host**, known by the number it was made with: a module, or a function of a guest language. These
    are all the kinds that are considered, since what an expression yields depends on what the members of an object may
    be; none of these has a function of the registry for a member. -/
inductive HostRef
  | module (name : ModuleName) (id : Nat)
  /-- A function of a guest language, by its number there. Each time it comes back it is a new
      object. -/
  | guest (id function : Nat)
  deriving DecidableEq, Repr, Inhabited

namespace HostRef

/-- The type of an object. -/
def typeName : HostRef → String
  | module .. => "module"
  | guest .. => "function"

/-- The name of an object. -/
def name : HostRef → String
  | module name _ => name.text
  | guest .. => "lua"

/-- The number an object was made with. -/
def id : HostRef → Nat
  | module _ id => id
  | guest id _ => id

end HostRef

/-- **The values of the language.** -/
inductive Value
  | nil
  | bool (b : Bool)
  | int (n : Int64)
  | float (x : Float)
  | str (s : String)
  | list (items : List Value)
  | dict (pairs : List (Value × Value))
  /-- A function of the registry, by name. -/
  | func (name : String)
  | host (h : HostRef)
  deriving Repr, Inhabited

namespace Value

/-- The value of a literal. -/
def ofLiteral : Literal → Value
  | .nil => nil
  | .bool b => bool b
  | .int n => int n
  | .float x => float x
  | .str s => str s

/-- A string value from characters. -/
def ofChars (cs : List Char) : Value := str (String.ofList cs)

/-- The integer of a natural number, within the range of integers. -/
def ofNat (n : Nat) : Value := int (Decimal.clampInt n)

/-- The name of a value's type. -/
def typeName : Value → String
  | nil => "nil"
  | bool _ => "bool"
  | int _ => "int"
  | float _ => "float"
  | str _ => "string"
  | list _ => "list"
  | dict _ => "dict"
  | func _ => "function"
  | host h => h.typeName

/-- What counts as true: everything but `nil`, `false`, zero and the empty string, list and dict. -/
def truthy : Value → Bool
  | nil => false
  | bool b => b
  | int n => n != 0
  | float x => x != 0.0
  | str s => !s.isEmpty
  | list items => !items.isEmpty
  | dict pairs => !pairs.isEmpty
  | func _ | host _ => true

/-- A number as a float. -/
def asFloat? : Value → Option Float
  | int n => some (Decimal.floatOfInt n)
  | float x => some x
  | _ => none

/-- Whether a value is a number. -/
def isNumber : Value → Bool
  | int _ | float _ => true
  | _ => false

/-! ## Written forms -/

open Outline (commas)

mutual

/-- The written form of a value, in which strings are quoted. -/
def repr : Value → String
  | nil => "nil"
  | bool b => if b then "true" else "false"
  | int n => toString n.toInt
  | float x => Decimal.Layout.value.write x
  | str s => Text.quote s
  | list items => "[" ++ commas (reprs items) ++ "]"
  | dict pairs => "\x7b" ++ commas (pairReprs pairs) ++ "\x7d"
  | func name => "<function " ++ name ++ ">"
  | host h => "<" ++ h.typeName ++ " " ++ h.name ++ ">"

/-- The written forms of some values. -/
def reprs : List Value → List String
  | [] => []
  | v :: rest => v.repr :: reprs rest

/-- The written forms of some entries. -/
def pairReprs : List (Value × Value) → List String
  | [] => []
  | (k, v) :: rest => (k.repr ++ ": " ++ v.repr) :: pairReprs rest

end

/-- A value as text: a string as it is, anything else in its written form. -/
def display : Value → String
  | str s => s
  | v => v.repr

/-- Values as they are printed on one line. -/
def displayLine (vs : List Value) : String := String.intercalate " " (vs.map display)

/-! ## Equality -/

mutual

/-- `a == b`. For dicts: as many entries, and for each entry of `a` the first entry of `b` with an
    equal key has an equal value. -/
def eqv : Value → Value → Bool
  | nil, nil => true
  | bool a, bool b => a == b
  | int a, int b => a == b
  | float a, float b => a == b
  | int a, float b => Decimal.floatOfInt a == b
  | float a, int b => Decimal.floatOfInt b == a
  | str a, str b => a == b
  | list as, list bs => eqvItems as bs
  | dict as, dict bs => as.length == bs.length && entriesIn as bs
  | func a, func b => a == b
  | host a, host b => a == b
  | _, _ => false

/-- `b == a`, by recursion on `a`. -/
def eqvRev : Value → Value → Bool
  | nil, nil => true
  | bool a, bool b => b == a
  | int a, int b => b == a
  | float a, float b => b == a
  | int a, float b => Decimal.floatOfInt a == b
  | float a, int b => Decimal.floatOfInt b == a
  | str a, str b => b == a
  | list as, list bs => eqvRevItems as bs
  | dict as, dict bs => bs.length == as.length && bs.all fun e => hasEntry as e.1 e.2
  | func a, func b => b == a
  | host a, host b => b == a
  | _, _ => false

/-- Lists of equal length with equal items. -/
def eqvItems : List Value → List Value → Bool
  | [], [] => true
  | a :: as, b :: bs => if eqv a b then eqvItems as bs else false
  | _, _ => false

/-- `eqvItems` with the sides exchanged. -/
def eqvRevItems : List Value → List Value → Bool
  | [], [] => true
  | a :: as, b :: bs => if eqvRev a b then eqvRevItems as bs else false
  | _, _ => false

/-- Every entry of `as` has its like among `bs`. -/
def entriesIn : List (Value × Value) → List (Value × Value) → Bool
  | [], _ => true
  | (k, v) :: rest, bs =>
    match bs.find? fun e => eqvRev k e.1 with
    | some e => if eqvRev v e.2 then entriesIn rest bs else false
    | none => false

/-- Whether the first entry of `as` with a key equal to `k` has a value equal to `v`. -/
def hasEntry : List (Value × Value) → Value → Value → Bool
  | [], _, _ => false
  | (j, w) :: rest, k, v => if eqv j k then eqv w v else hasEntry rest k v

end

mutual

/-- Whether two values are the same: `1` is not `1.0`, and a NaN is the same as an identical NaN. -/
def same : Value → Value → Bool
  | float x, float y => x == y || x.toBits == y.toBits
  | list as, list bs => sameItems as bs
  | dict as, dict bs => as.length == bs.length && sameEntriesIn as bs
  | nil, nil => true
  | bool a, bool b => a == b
  | int a, int b => a == b
  | str a, str b => a == b
  | func a, func b => a == b
  | host a, host b => a == b
  | _, _ => false

/-- Lists of equal length with the same items. -/
def sameItems : List Value → List Value → Bool
  | [], [] => true
  | a :: as, b :: bs => if same a b then sameItems as bs else false
  | _, _ => false

/-- Every entry of `as` is the same as some entry of `bs`. -/
def sameEntriesIn : List (Value × Value) → List (Value × Value) → Bool
  | [], _ => true
  | (k, v) :: rest, bs =>
    if bs.any fun e => same k e.1 && same v e.2 then sameEntriesIn rest bs else false

end

/-! ## Dicts -/

/-- The value of the first entry with a key equal to `key`. -/
def dictGet? (pairs : List (Value × Value)) (key : Value) : Option Value :=
  (pairs.find? fun e => eqv e.1 key).map Prod.snd

/-- Give `key` a value: in the first entry with an equal key, which keeps its key and place, or in a
    new entry at the end. -/
def dictSet : List (Value × Value) → Value → Value → List (Value × Value)
  | [], key, v => [(key, v)]
  | (k, w) :: rest, key, v => if eqv k key then (k, v) :: rest else (k, w) :: dictSet rest key v

end Value

end Helios
