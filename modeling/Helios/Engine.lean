import Helios.Module
import Helios.Platform
import Helios.Scope

/-!
# Engines

What runs the blocks of other languages. The machine knows of an engine only which language it runs, and how
it is asked. An engine may break down, as it does when the code of a block never comes back.

An engine runs a block against the variables in view and hands back the namespace as the block left it, also when the
block failed. Comparing the two namespaces gives the names that the block made and the names that it changed; deleted
names are not followed up.
-/

namespace Helios

/-- What a block left behind. -/
structure PassthroughOutcome where
  bindings : Namespace
  error : Option String
  deriving Repr, Inhabited

/-- **The names that a block made or changed**, in ascending order, with their new values. -/
structure NamespaceDiff where
  added : List (String × Value)
  changed : List (String × Value)
  deriving Repr, Inhabited

namespace NamespaceDiff

/-- Compare the namespace that an engine got with the one it gave back. -/
def between (before after : Namespace) : NamespaceDiff :=
  { added := after.entries.filter fun e => (before.get? e.1).isNone
    changed := after.entries.filter fun e =>
      match before.get? e.1 with
      | some old => !Value.same old e.2
      | none => false }

end NamespaceDiff

/-! ## What the machine knows of an engine -/

/-- What an engine notes down of what it was asked to do, with the answers to its calls. -/
structure EngineRecord where
  language : String
  code : String
  bindings : Namespace
  functionCount : Nat
  calls : List (Except Cause Value)

namespace Engine

/-- What an engine is asked to do: to run a block against the variables in view, with some functions. Objects
    that it makes get the next numbers. -/
structure Request where
  code : String
  bindings : Namespace
  functions : FunctionTable
  hosts : Hosts

/-- What running a block gives. -/
structure Run where
  outcome : PassthroughOutcome
  hosts : Hosts
  /-- What the engine noted down. -/
  record : Option EngineRecord

end Engine

/-- **An engine**, with a state of its own. Instead of giving something back for a block it may break down. -/
structure Engine where
  /-- The language that it runs. -/
  language : String
  oracle : Oracle Engine.Request (Option Engine.Run)

namespace Engine

/-- Add an engine, in the place of an earlier one for the same language. -/
def add (engines : List Engine) (e : Engine) : List Engine :=
  engines.filter (fun other => other.language ≠ e.language) ++ [e]

/-- What becomes of a block. -/
inductive Ending
  /-- No engine runs its language. -/
  | missing
  | broken
  /-- An engine ran it; the engines after that. -/
  | ran (run : Run) (engines : List Engine)

/-- Keep an engine in front of the others. -/
def Ending.behind (e : Engine) : Ending → Ending
  | missing => missing
  | broken => broken
  | ran run engines => ran run (e :: engines)

/-- Run a block with the engine for its language, and put the engine back. -/
def executeIn (language : String) (r : Request) : List Engine → Ending
  | [] => .missing
  | e :: rest =>
    if e.language = language then
      match e.oracle.ask r with
      | (none, _) => .broken
      | (some run, oracle) => .ran run ({ e with oracle } :: rest)
    else (executeIn language r rest).behind e

end Engine

/-! ## Prepared engines -/

/-- What a prepared engine does for one block. -/
structure PreparedBlock where
  set : List (String × Value) := []
  delete : List String := []
  error : Option String := none
  calls : List (String × List Value) := []
  deriving Repr, Inhabited

/-- A language, and what is done for each of its blocks. -/
structure PreparedEngine where
  language : String
  blocks : List PreparedBlock
  deriving Repr, Inhabited

namespace PreparedEngine

/-- Run one block. -/
def execute (e : PreparedEngine) (r : Engine.Request) : Option Engine.Run × PreparedEngine :=
  let block := e.blocks.headD {}
  let calls := block.calls.map fun (name, args) => r.functions.call name args
  let kept := block.delete.foldl Bindings.erase r.bindings
  let after := block.set.foldl (fun ns (name, v) => ns.insert name v) kept
  (some ⟨⟨after, block.error⟩, r.hosts, some ⟨e.language, r.code, r.bindings, r.functions.length, calls⟩⟩,
   { e with blocks := e.blocks.tail })

end PreparedEngine

/-- **An engine that does not run code** but changes the namespace as it was told beforehand, block by
    block; once its blocks are used up it changes nothing. -/
def Engine.prepared (e : PreparedEngine) : Engine := ⟨e.language, .ofSteps PreparedEngine.execute e []⟩

end Helios
