import Helios.Bindings
import Helios.Stmt
import Helios.Builtin.Numbers
import Helios.Builtin.Collections
import Helios.Builtin.Conversions
import Helios.Builtin.Texts

/-!
# The registry of functions

Functions are known by name: built-in ones and those a program defines. A later definition replaces an
earlier one. Built-in functions are *pure* when they depend on their arguments only, so that code of
other languages may call them too, as it may call the one that reads the clock on the wall. The others
need the running program and are named here and carried out by the interpreter.
-/

namespace Helios

/-- The built-in functions that need the running program. -/
inductive HostBuiltin
  | print | input | add | mul | random | randint | choice | clock
  deriving DecidableEq, Repr, Inhabited

/-- What a built-in function does. -/
inductive BuiltinBody
  | pure (run : Builtin.PureBody)
  /-- Depends on what the clock on the wall shows as well. -/
  | timed (run : Float → Builtin.PureBody)
  | host (what : HostBuiltin)

/-- What a built-in function does without the running program, while the clock on the wall shows `wall`. -/
def BuiltinBody.pure? (wall : Float) : BuiltinBody → Option Builtin.PureBody
  | pure run => some run
  | timed run => some (run wall)
  | host _ => none

/-- **A function of the registry.** -/
inductive FunctionEntry
  | builtin (arity : Arity) (body : BuiltinBody)
  | user (params : List String) (body : Block)

namespace FunctionEntry

/-- The accepted argument counts. -/
def arity : FunctionEntry → Arity
  | builtin arity _ => arity
  | user params _ => .exactly params.length

/-- What a built-in function does without the running program; functions of the program need it. -/
def pure? (wall : Float) : FunctionEntry → Option Builtin.PureBody
  | builtin _ body => body.pure? wall
  | user .. => none

/-- Whether a program defined the function. -/
def isUser : FunctionEntry → Bool
  | user .. => true
  | _ => false

/-- Whether it is a built-in function that needs the running program. -/
def isHost : FunctionEntry → Bool
  | builtin _ (.host _) => true
  | _ => false

/-- The shape of an entry; bodies of built-in functions are not shown. -/
def outline : FunctionEntry → Outline
  | builtin arity body =>
    .record "Builtin"
      [("arity", .record "Arity" [("min", .nat arity.min), ("max", .option (arity.max.map .nat))]),
       ("func", .atom (match body with | .pure _ | .timed _ => "Pure(..)" | .host _ => "Host(..)"))]
  | user params body =>
    .record "User" [("params", .list (params.map .text)), ("body", .list (Stmt.blockOutlines body))]

end FunctionEntry

namespace Builtin

open Arity (exactly between atLeast)

/-- **Every built-in function**, with a reader of regular expressions. -/
def table (regex : Regex) : List (String × Arity × BuiltinBody) :=
  [("print", atLeast 0, .host .print),
   ("print_many", atLeast 0, .host .print),
   ("input", between 0 1, .host .input),
   ("sleep", exactly 1, .pure sleep),
   ("add", exactly 2, .host .add),
   ("mul", exactly 2, .host .mul),
   ("abs", exactly 1, .pure abs),
   ("min", atLeast 1, .pure (extreme "min" .lt)),
   ("max", atLeast 1, .pure (extreme "max" .gt)),
   ("floor", exactly 1, .pure (toWhole "floor" Decimal.Binary.floor)),
   ("ceil", exactly 1, .pure (toWhole "ceil" Decimal.Binary.ceil)),
   ("round", between 1 2, .pure round),
   ("sqrt", exactly 1, .pure sqrt),
   ("pow", exactly 2, .pure pow),
   ("len", exactly 1, .pure len),
   ("upper", exactly 1, .pure (onText "upper" Text.toUpper)),
   ("lower", exactly 1, .pure (onText "lower" Text.toLower)),
   ("trim", exactly 1, .pure (onText "trim" Text.trim)),
   ("split", between 1 2, .pure split),
   ("join", exactly 2, .pure join),
   ("replace", exactly 3, .pure replace),
   ("substr", between 2 3, .pure substr),
   ("contains", exactly 2, .pure contains),
   ("starts_with", exactly 2, .pure startsWith),
   ("ends_with", exactly 2, .pure endsWith),
   ("find", exactly 2, .pure find),
   ("repeat", exactly 2, .pure repeat_),
   ("matches", exactly 2, .pure (matches_ regex)),
   ("range", between 1 3, .pure range),
   ("append", exactly 2, .pure append),
   ("insert", exactly 3, .pure insert),
   ("remove", exactly 2, .pure remove),
   ("pop", between 1 2, .pure pop),
   ("first", exactly 1, .pure first),
   ("last", exactly 1, .pure last),
   ("reverse", exactly 1, .pure reverse),
   ("sort", exactly 1, .pure sort),
   ("slice", between 2 3, .pure slice),
   ("keys", exactly 1, .pure keys),
   ("values", exactly 1, .pure values),
   ("has_key", exactly 2, .pure hasKey),
   ("set", exactly 3, .pure set),
   ("get", between 2 3, .pure get),
   ("random", exactly 0, .host .random),
   ("randint", exactly 2, .host .randint),
   ("choice", exactly 1, .host .choice),
   ("time", exactly 0, .timed time),
   ("clock", exactly 0, .host .clock),
   ("str", exactly 1, .pure toStr),
   ("int", exactly 1, .pure int),
   ("float", exactly 1, .pure float),
   ("bool", exactly 1, .pure bool),
   ("type", exactly 1, .pure typeOf)]

/-- The built-in function of a name, if it does not need the running program. -/
def pure? (r : Reading) (name : String) : Option (Arity × PureBody) :=
  (table r.regex).findSome? fun (n, arity, body) =>
    (body.pure? r.wall).bind fun run => if n == name then some (arity, run) else none

theorem mem_of_pure? {r : Reading} {name : String} {arity : Arity} {run : PureBody}
    (h : pure? r name = some (arity, run)) :
    ∃ body, body.pure? r.wall = some run ∧ (name, arity, body) ∈ table r.regex := by
  obtain ⟨⟨n, a, body⟩, hmem, hentry⟩ := List.exists_of_findSome?_eq_some h
  obtain ⟨run', hrun, hname⟩ := Option.bind_eq_some_iff.mp hentry
  split at hname
  · next heq =>
    obtain ⟨rfl, rfl⟩ := Prod.mk.inj (Option.some.inj hname)
    obtain rfl := eq_of_beq heq
    exact ⟨body, hrun, hmem⟩
  · cases hname

end Builtin

/-- Functions by name. -/
abbrev Registry := Bindings FunctionEntry

namespace Registry

/-- The registry of every built-in function. -/
def withBuiltins (regex : Regex) : Registry :=
  Bindings.ofList ((Builtin.table regex).map fun (name, arity, body) => (name, .builtin arity body))

/-- Define a function of the program. -/
def defineUser (r : Registry) (name : String) (params : List String) (body : Block) : Registry :=
  r.insert name (.user params body)

end Registry

/-- Fail unless a call of `function` may have `got` arguments. -/
def Arity.check (a : Arity) (function : String) (got : Nat) : Except Cause Unit :=
  if a.accepts got then .ok () else .error (.arity function a got)

/-! ## What other languages see -/

/-- A function as code of another language sees it. -/
structure FunctionInfo where
  name : String
  arity : Arity
  /-- Present when the function may be called. -/
  pure : Option Builtin.PureBody

/-- **The functions that code of another language sees**, in ascending order of their names. -/
abbrev FunctionTable := List FunctionInfo

namespace FunctionTable

/-- The table of a registry, while the clock on the wall shows `wall`. -/
def ofRegistry (r : Registry) (wall : Float) : FunctionTable :=
  r.entries.map fun (name, entry) => ⟨name, entry.arity, entry.pure? wall⟩

/-- Call a pure function by name. -/
def call (t : FunctionTable) (name : String) (args : List Value) : Except Cause Value :=
  match t.find? fun f => f.name == name with
  | none => .error (.name name)
  | some f =>
    match f.pure with
    | none => .error (.type (.foreignCall name))
    | some run => do
      f.arity.check name args.length
      run args

end FunctionTable

end Helios
