import Helios.Engine
import Helios.Frontend
import Helios.Platform
import Helios.Resolver
import Helios.Settings

/-!
# The machine

Everything a running program can read or change, and computations over it. A computation ends with a
value, with a failure, with a wish for a line that nobody typed yet, or because the fuel that bounds
every evaluation ran out.

`Machine.inBlock` and `Machine.inCall` run a computation in a frame of its own, and give the frame up
however the computation ends.
-/

namespace Helios

/-- What the program wrote. -/
inductive Output
  | line (text : String)
  /-- Text without an end of line, in front of an answer that is typed in. -/
  | prompt (text : String)
  deriving DecidableEq, Repr, Inhabited

namespace Output

/-- The characters that are written. -/
def text : Output → String
  | line s => s ++ "\n"
  | prompt s => s

end Output

/-- What can be read when no lines are queued. -/
inductive Stdin
  /-- Nothing is read. -/
  | off
  /-- The text typed so far; `ended` when no more will follow. -/
  | text (rest : List Char) (ended : Bool)
  deriving DecidableEq, Repr, Inhabited

/-- **The state of a running program.** -/
structure Machine where
  scopes : Scopes
  registry : Registry
  resolvers : List Resolver
  engines : List Engine
  frontend : Screen
  output : Array Output
  /-- Lines that are served before anything is read. -/
  input : List String
  stdin : Stdin
  random : Random
  hosts : Hosts
  platform : Platform
  /-- How many times a clock may have been read. -/
  moment : Nat
  maxDepth : Nat
  /-- Calls of user functions that are going on. -/
  depth : Nat
  /-- What engines noted down. -/
  records : Array EngineRecord

namespace Machine

/-- A machine with every built-in function, the modules of the language and nothing else. -/
def initial (p : Platform) : Machine where
  scopes := .initial
  registry := .withBuiltins p.regex
  resolvers := [.standard .initial]
  engines := []
  frontend := .initial
  output := #[]
  input := []
  stdin := .off
  random := .seeded p.seed
  hosts := { Hosts.initial with seeds := p.seeds }
  platform := p
  moment := 0
  maxDepth := Settings.standard.maxDepth
  depth := 0
  records := #[]

/-- Seed the generator of the machine. -/
def seed (m : Machine) (n : UInt64) : Machine := { m with random := .seeded n }

/-- The value of a variable in view. -/
def get? (m : Machine) (name : String) : Option Value := m.scopes.get? name

/-- Bind a global variable. -/
def setGlobal (m : Machine) (name : String) (v : Value) : Machine :=
  { m with scopes := m.scopes.defineGlobal name v }

/-- What the platform shows at this moment. -/
def reading (m : Machine) : Reading := m.platform.reading m.moment

/-- What an engine is asked to do for a block. While it runs the clock on the wall stands still for the
    functions that it may call. -/
def request (m : Machine) (code : String) : Engine.Request :=
  ⟨code, m.scopes.visible, .ofRegistry m.registry m.reading.wall, m.hosts⟩

/-- What a name stands for: a variable, or else a function of the registry. -/
def resolveName? (m : Machine) (name : String) : Option Value :=
  match m.scopes.get? name with
  | some v => some v
  | none => if m.registry.contains name then some (.func name) else none

end Machine

/-- Why a computation has no value. -/
inductive Halt
  | failed (e : Error)
  /-- A line is wanted that was not typed yet. -/
  | waiting
  | outOfFuel

/-- **A computation on the machine.** -/
abbrev Exec (α : Type) := ExceptT Halt (StateM Machine) α

namespace Exec

/-- Fail, at a place that is not known yet. -/
def fail {α : Type} (c : Cause) : Exec α := fun m => (.error (.failed ⟨c, .unknown⟩), m)

/-- The fuel is used up. -/
def exhausted {α : Type} : Exec α := fun m => (.error .outOfFuel, m)

/-- A result that needs nothing of the machine. -/
def ofExcept {α : Type} : Except Cause α → Exec α
  | .ok a => pure a
  | .error c => fail c

/-- Read the machine. -/
def read {α : Type} (f : Machine → α) : Exec α := fun m => (.ok (f m), m)

/-- Change the machine. -/
def update (f : Machine → Machine) : Exec Unit := fun m => (.ok (), f m)

/-- Add the line of a statement to a failure that has no location. -/
def atLine {α : Type} (n : Nat) (x : Exec α) : Exec α := fun m =>
  match x m with
  | (.error (.failed e), m) => (.error (.failed (e.atLine n)), m)
  | r => r

/-- Look at the platform. It may show something else the next time. -/
def glance : Exec Reading := fun m => (.ok m.reading, { m with moment := m.moment + 1 })

/-! ## Frames -/

/-- Change the variables. -/
def updateScopes (f : Scopes → Scopes) : Exec Unit := update fun m => { m with scopes := f m.scopes }

/-- Run in a frame inside the current one, and give it up at the end. -/
def inBlock {α : Type} (x : Exec α) : Exec α := fun m =>
  let (saved, scopes) := m.scopes.enterBlock
  let (r, m) := x { m with scopes }
  (r, { m with scopes := m.scopes.leave saved })

/-- Run in the frame of a call, one call deeper, and give it up at the end. -/
def inCall {α : Type} (x : Exec α) : Exec α := fun m =>
  let depth := m.depth
  let (saved, scopes) := m.scopes.enterCall
  let (r, m) := x { m with scopes, depth := depth + 1 }
  (r, { m with scopes := m.scopes.leave saved, depth := m.depth - 1 })

/-! ## Input and output -/

/-- Write a line. -/
def writeLine (line : String) : Exec Unit := update fun m => { m with output := m.output.push (.line line) }

/-- The text of the next line without the end of it, and what follows. -/
def takeLine (cs : List Char) : List Char × List Char :=
  let line := cs.takeWhile (· ≠ '\n')
  let ends := fun c : Char => c = '\n' || c = '\r'
  ((line.reverse.dropWhile ends).reverse, (cs.drop line.length).drop 1)

/-- Read a line: a queued one, or else one that is typed, after a prompt. -/
def readLine (prompt : String) : Exec (Option String) := fun m =>
  match m.input with
  | line :: rest => (.ok (some line), { m with input := rest })
  | [] =>
    match m.stdin with
    | .off => (.ok none, m)
    | .text cs ended =>
      let m := if prompt.isEmpty then m else { m with output := m.output.push (.prompt prompt) }
      if !ended && !cs.contains '\n' then (.error .waiting, m)
      else if cs.isEmpty then (.ok none, m)
      else
        let (line, rest) := takeLine cs
        (.ok (some (String.ofList line)), { m with stdin := .text rest ended })

/-! ## Built-in functions that need the machine -/

/-- Draw from the generator of the machine. -/
def draw {α : Type} (f : Random → α × Random) : Exec α := fun m =>
  let (a, random) := f m.random
  (.ok a, { m with random })

/-- Carry out a built-in function that needs the machine. -/
def host (what : HostBuiltin) (args : List Value) : Exec Value :=
  match what with
  | .print => do
    writeLine (Value.displayLine args)
    pure .nil
  | .input => do
    let line ← readLine ((args.head?.map Value.display).getD "")
    pure ((line.map Value.str).getD .nil)
  | .add => do
    let a ← ofExcept (Builtin.arg args 0)
    let b ← ofExcept (Builtin.arg args 1)
    let v ← ofExcept (a.add b)
    writeLine v.display
    pure v
  | .mul => do
    let a ← ofExcept (Builtin.arg args 0)
    let b ← ofExcept (Builtin.arg args 1)
    let v ← ofExcept (a.mul b)
    writeLine v.display
    pure v
  | .random => do
    let x ← draw Random.nextFloat
    pure (.float x)
  | .randint => do
    let low ← ofExcept (Builtin.intArg "randint" args 0)
    let high ← ofExcept (Builtin.intArg "randint" args 1)
    if high.toInt < low.toInt then fail (.value (.emptyRange low.toInt high.toInt))
    else
      let n ← draw fun g => g.nextInt low.toInt high.toInt
      pure (.int (Int64.ofInt n))
  | .choice => do
    let items ← ofExcept (Builtin.listArg "choice" args 0)
    if items.isEmpty then fail (.value (.fromEmptyList "choice"))
    else
      let n ← draw fun g => g.nextInt 0 (items.length - 1)
      ofExcept (Value.itemAt items n.toNat)
  | .clock => do
    let r ← glance
    pure (.float r.elapsed)

/-! ## Objects, imports and blocks of other languages -/

/-- Call a member of an object. -/
def callMember (ref : HostRef) (member : String) (args : List Value) : Exec Value := fun m =>
  match m.hosts.call m.reading ref member args with
  | (.ok v, hosts) => (.ok v, { m with hosts, moment := m.moment + 1 })
  | (.error c, hosts) => (.error (.failed ⟨c, .unknown⟩), { m with hosts, moment := m.moment + 1 })

/-- Import a path and bind the last part of it as a global variable. -/
def contain (path : String) : Exec Unit := fun m =>
  match Resolver.resolveFirst m.resolvers path m.hosts with
  | (.ok ref, resolvers, hosts) =>
    (.ok (), ({ m with resolvers, hosts }).setGlobal (leafName path) (.host ref))
  | (.error reason, resolvers, hosts) =>
    (.error (.failed ⟨.package path reason, .unknown⟩), { m with resolvers, hosts })

/-- Bring what a block made and changed into view: new names are global, changed ones are rebound where
    they are bound. -/
def merge (s : Scopes) (d : NamespaceDiff) : Scopes :=
  let s := d.added.foldl (fun s e => s.defineGlobal e.1 e.2) s
  d.changed.foldl (fun s e => s.assign e.1 e.2) s

/-- Run a block of another language. What it did to the variables stays also when it fails. -/
def passthrough (language code : String) : Exec Unit := fun m =>
  match Engine.executeIn language (m.request code) m.engines with
  | .missing =>
    (.error (.failed ⟨.passthrough language "no engine is available for this language", .unknown⟩), m)
  | .broken => (.error (.failed ⟨.broken, .unknown⟩), m)
  | .ran run engines =>
    let m := { m with
      engines
      hosts := run.hosts
      moment := m.moment + 1
      scopes := merge m.scopes (.between m.scopes.visible run.outcome.bindings)
      records := match run.record with
        | some r => m.records.push r
        | none => m.records }
    match run.outcome.error with
    | some message => (.error (.failed ⟨.passthrough language message, .unknown⟩), m)
    | none => (.ok (), m)

/-- Send a command to the frontend. -/
def dispatch (c : FrontendCommand) : Exec FrontendReply := fun m =>
  match m.frontend.dispatch c with
  | (.ok reply, frontend) => (.ok reply, { m with frontend })
  | (.error e, frontend) => (.error (.failed ⟨e.toCause, .unknown⟩), { m with frontend })
  | (.broken, frontend) => (.error (.failed ⟨.broken, .unknown⟩), { m with frontend })

end Exec

end Helios
