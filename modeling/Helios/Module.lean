import Helios.Registry
import Helios.Random

/-!
# Modules

The modules that come with the language: constants and functions under a name. Functions of `random`
draw from a generator that belongs to the module object, so two objects never share one.
-/

namespace Helios

/-- What a member function does. -/
inductive MemberBody
  | pure (run : Builtin.PureBody)
  /-- Draws from the generator of the module. -/
  | drawing (run : List Value → Random → Except Cause (Value × Random))

/-- A member function: its name, argument counts and body. -/
structure MemberFunction where
  name : String
  arity : Arity
  body : MemberBody

namespace Module

/-- A number argument of a member function. -/
def num (function : String) (args : List Value) (i : Nat) : Except Cause Float := do
  let v ← Builtin.arg args i
  match v.asFloat? with
  | some x => pure x
  | none => throw (.type (.memberArgument function "a number" v.typeName))

/-- An integer argument of a member function. -/
def int (function : String) (args : List Value) (i : Nat) : Except Cause Int64 := do
  match ← Builtin.arg args i with
  | .int n => pure n
  | v => throw (.type (.memberArgument function "an integer" v.typeName))

/-- A function of one float. -/
def float1 (name : String) (f : Float → Float) : MemberFunction :=
  ⟨name, .exactly 1, .pure fun args => do
    let x ← num name args 0
    pure (.float (f x))⟩

/-- A function of two floats. -/
def float2 (name : String) (f : Float → Float → Float) : MemberFunction :=
  ⟨name, .exactly 2, .pure fun args => do
    let x ← num name args 0
    let y ← num name args 1
    pure (.float (f x y))⟩

/-- A built-in function that is also a member. -/
def reexport (r : Reading) (name : String) : Option MemberFunction :=
  (Builtin.pure? r name).map fun (arity, run) => ⟨name, arity, .pure run⟩

/-- `log(x)`, or `log(x, base)` as a quotient of logarithms. -/
def log : Builtin.PureBody := fun args => do
  let x ← num "log" args 0
  if x <= 0.0 then throw (.value .nonPositiveLog)
  else if args.length = 2 then
    let base ← num "log" args 1
    pure (.float (x.log / base.log))
  else pure (.float x.log)

/-- `uniform(low, high)`. -/
def uniform (args : List Value) (g : Random) : Except Cause (Value × Random) := do
  let low ← num "uniform" args 0
  let high ← num "uniform" args 1
  let (x, g) := g.nextFloat
  pure (.float (low + (high - low) * x), g)

/-- `randint(low, high)`. -/
def randint (args : List Value) (g : Random) : Except Cause (Value × Random) := do
  let low ← int "randint" args 0
  let high ← int "randint" args 1
  if high.toInt < low.toInt then throw (.value (.emptyRange low.toInt high.toInt))
  else
    let (n, g) := g.nextInt low.toInt high.toInt
    pure (.int (Int64.ofInt n), g)

/-- `choice(items)`. -/
def choice (args : List Value) (g : Random) : Except Cause (Value × Random) := do
  match ← Builtin.arg args 0 with
  | .list [] => throw (.value (.fromEmptyList "choice"))
  | .list items =>
    let (n, g) := g.nextInt 0 (items.length - 1)
    let v ← Value.itemAt items n.toNat
    pure (v, g)
  | v => throw (.type (.memberArgument "choice" "a list" v.typeName))

/-- `seed(n)` starts the generator anew. -/
def seed (args : List Value) (_ : Random) : Except Cause (Value × Random) := do
  let n ← int "seed" args 0
  pure (.nil, .seeded n.toUInt64)

/-- `capitalize(s)`. -/
def capitalize : Builtin.PureBody := fun args => do
  match ← Builtin.arg args 0 with
  | .str s => pure (Value.ofChars (Text.capitalize s.toList))
  | v => throw (.type (.memberArgument "capitalize" "a string" v.typeName))

/-- The constants of a module. -/
def constants : ModuleName → List (String × Value)
  | .math =>
    [("pi", .float 3.141592653589793), ("e", .float 2.718281828459045),
     ("tau", .float 6.283185307179586), ("inf", .float (1.0 / 0.0))]
  | .random | .time => []
  | .string =>
    [("ascii_lowercase", .str "abcdefghijklmnopqrstuvwxyz"),
     ("ascii_uppercase", .str "ABCDEFGHIJKLMNOPQRSTUVWXYZ"),
     ("ascii_letters", .str "abcdefghijklmnopqrstuvwxyzABCDEFGHIJKLMNOPQRSTUVWXYZ"),
     ("digits", .str "0123456789"),
     ("punctuation", .str "!\"#$%&'()*+,-./:;<=>?@[\\]^_`\x7b|\x7d~")]

/-- The functions of a module, at a moment. -/
def functions (r : Reading) : ModuleName → List MemberFunction
  | .math =>
    ["sqrt", "floor", "ceil", "round", "pow", "abs"].filterMap (reexport r) ++
    [float1 "sin" Float.sin, float1 "cos" Float.cos, float1 "tan" Float.tan, float1 "exp" Float.exp,
     float2 "atan2" Float.atan2, float2 "hypot" Decimal.hypot, ⟨"log", .between 1 2, .pure log⟩]
  | .random =>
    [⟨"random", .exactly 0, .drawing fun _ g =>
        let (x, g) := g.nextFloat
        .ok (.float x, g)⟩,
     ⟨"uniform", .exactly 2, .drawing uniform⟩, ⟨"randint", .exactly 2, .drawing randint⟩,
     ⟨"choice", .exactly 1, .drawing choice⟩, ⟨"seed", .exactly 1, .drawing seed⟩]
  | .time =>
    ["time", "sleep"].filterMap (reexport r) ++
    [⟨"monotonic", .exactly 0, .pure fun _ => .ok (.float r.elapsed)⟩]
  | .string =>
    ["upper", "lower", "trim"].filterMap (reexport r) ++
    [⟨"capitalize", .exactly 1, .pure capitalize⟩]

/-- Read a member: only constants have a value. -/
def member? (m : ModuleName) (name : String) : Option Value :=
  ((constants m).find? fun c => c.1 == name).map Prod.snd

/-- Call a member with the generator of the module object. A failed call draws nothing. -/
def call (r : Reading) (m : ModuleName) (name : String) (args : List Value) (g : Random) :
    Except Cause (Value × Random) := do
  match (functions r m).find? fun f => f.name == name with
  | none => throw (.name (m.text ++ "." ++ name))
  | some f =>
    f.arity.check (m.text ++ "." ++ f.name) args.length
    match f.body with
    | .pure run =>
      let v ← run args
      pure (v, g)
    | .drawing run => run args g

/-- The shape of a module object. -/
def outline (m : ModuleName) : String := "NativeModule \x7b name: " ++ Text.quote m.text ++ ", .. \x7d"

end Module

/-! ## Module objects -/

/-- **The objects that were made**: the number of the next one, and the generators of modules. A generator
    that was not used yet starts from a seed that nobody chose. -/
structure Hosts where
  next : Nat
  generators : List (Nat × Random)
  seeds : Nat → UInt64

namespace Hosts

/-- No objects yet, and equal seeds for all that are to come. -/
def initial : Hosts := ⟨0, [], fun _ => 1⟩

/-- Make a number for a new object. -/
def fresh (h : Hosts) : Nat × Hosts := (h.next, { h with next := h.next + 1 })

/-- Make a module object. -/
def newModule (h : Hosts) (m : ModuleName) : HostRef × Hosts :=
  let (id, h) := h.fresh
  (.module m id, h)

/-- The generator of a module object. -/
def generator (h : Hosts) (id : Nat) : Random :=
  ((h.generators.find? fun g => g.1 == id).map Prod.snd).getD (.seeded (h.seeds id))

/-- Keep the generator of a module object. -/
def setGenerator (h : Hosts) (id : Nat) (g : Random) : Hosts :=
  { h with generators := (id, g) :: h.generators.filter fun e => e.1 != id }

/-- Call a member of an object. Functions of guest languages have no members. -/
def call (r : Reading) (h : Hosts) (ref : HostRef) (name : String) (args : List Value) :
    Except Cause Value × Hosts :=
  match ref with
  | .module m id =>
    match Module.call r m name args (h.generator id) with
    | .ok (v, g) => (.ok v, h.setGenerator id g)
    | .error c => (.error c, h)
  | .guest .. => (.error (.name (ref.name ++ "." ++ name)), h)

/-- Read a member of an object. -/
def member? (ref : HostRef) (name : String) : Option Value :=
  match ref with
  | .module m _ => Module.member? m name
  | .guest .. => none

end Hosts

/-- **Modules by path**, each made once: a later import of a path gives the same object. -/
structure ModuleCache where
  made : Bindings HostRef
  deriving Repr, Inhabited

namespace ModuleCache

/-- No module was imported yet. -/
def initial : ModuleCache := ⟨.empty⟩

/-- The object of a path; `none` when there is no such module. -/
def resolve (c : ModuleCache) (path : String) (h : Hosts) : Option (HostRef × ModuleCache × Hosts) :=
  match c.made.get? path with
  | some ref => some (ref, c, h)
  | none =>
    (ModuleName.ofText? path).map fun m =>
      let (ref, h) := h.newModule m
      (ref, ⟨c.made.insert path ref⟩, h)

end ModuleCache

end Helios
