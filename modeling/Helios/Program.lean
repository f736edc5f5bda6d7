import Helios.Eval
import Helios.Stmt.Parser

/-!
# Running programs

What can be asked of a machine from outside: run a source text, evaluate an expression, call a
function. Nothing runs unless the whole text parses.
-/

namespace Helios

namespace Exec

/-- A result of a parser. -/
def ofParse {α : Type} : Except Error α → Exec α
  | .ok a => pure a
  | .error e => fun m => (.error (.failed e), m)

/-- Run a program in the current frame. -/
def runBlock (fuel : Nat) (program : Block) : Exec Unit := do
  let _ ← execBlock fuel program
  pure ()

/-- Parse and run a program. -/
def runSource (fuel : Nat) (source : String) : Exec Unit := do
  let program ← ofParse (Stmt.parseProgram source)
  runBlock fuel program

/-- Parse and evaluate an expression. -/
def evalSource (fuel : Nat) (source : String) : Exec Value := do
  let e ← ofParse (Expr.parse source)
  eval fuel e

end Exec

namespace Machine

/-- Fuel that no run on a real computer uses up. -/
def ampleFuel : Nat := 0x4000000000000000

/-- Parse and run a program. -/
def runSource (m : Machine) (source : String) : Except Halt Unit × Machine :=
  Exec.runSource ampleFuel source m

/-- Parse and evaluate an expression. -/
def evalSource (m : Machine) (source : String) : Except Halt Value × Machine :=
  Exec.evalSource ampleFuel source m

/-- Call a registered function. -/
def callFunction (m : Machine) (name : String) (args : List Value) : Except Halt Value × Machine :=
  Exec.callFunction ampleFuel name args m

/-- Queue lines for `input`. -/
def pushInput (m : Machine) (lines : List String) : Machine := { m with input := m.input ++ lines }

/-- Add an engine, in the place of an earlier one for the same language. -/
def addEngine (m : Machine) (e : Engine) : Machine := { m with engines := Engine.add m.engines e }

/-- Add a resolver, to be asked after the others. -/
def addResolver (m : Machine) (r : Resolver) : Machine := { m with resolvers := m.resolvers ++ [r] }

/-- Let an event wait at the frontend. -/
def queueEvent (m : Machine) (e : ScriptedEvent) : Machine := { m with frontend := m.frontend.queue e }

/-- What was written and noted down since the last time, and the machine without it. -/
def takeOutput (m : Machine) : Array Output × Array EngineRecord × Machine :=
  (m.output, m.records, { m with output := #[], records := #[] })

end Machine

end Helios
