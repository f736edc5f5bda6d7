import Helios.Engine
import Helios.Guest.Convert

/-!
# The guest engine

A block runs against a table of its own, which holds the variables in view and the functions that the
host lends, under the name `funcs`. What the table holds under names when the block ends, also when it
failed, is what comes back; `funcs` does not. What running the code does is left to an interpreter.
-/

namespace Helios.Guest

/-- The name of the lent functions. -/
def lentName : String := "funcs"

/-- Whether a variable is handed to a block: functions and objects of the host are not, as such. -/
def isHandedIn : Value → Bool
  | .func _ | .host (.module ..) => false
  | _ => true

namespace Run

/-- The entries of the table of a block for some variables. -/
def handIn : List (String × Value) → Run (List (Val × Val))
  | [] => pure []
  | (name, v) :: rest => do
    if isHandedIn v then
      let g ← toGuest v
      let es ← handIn rest
      match g with
      | .nil => pure es
      | g => pure ((.ofString name, g) :: es)
    else handIn rest

/-- The entries of the table of lent functions. -/
def lend : FunctionTable → Run (List (Val × Val))
  | [] => pure []
  | f :: rest => do
    match f.pure with
    | none => lend rest
    | some run =>
      let id ← update (·.newFunction (.lent f.name f.arity run))
      let es ← lend rest
      pure ((.ofString f.name, .function id) :: es)

/-- Make the table of a block. -/
def environment (bindings : Namespace) (functions : FunctionTable) : Run Nat := do
  let entries ← handIn bindings.entries
  let lent ← lend functions
  let id ← update (·.newTable (.ofEntries lent))
  update (·.newTable (.ofEntries (Table.setEntry (.ofString lentName) (.table id) entries)))

/-- The names and values of the table of a block. -/
def collect : List (Val × Val) → Run (List (String × Value))
  | [] => pure []
  | (.str bytes, v) :: rest => do
    let name := Text.decode ⟨bytes.toArray⟩
    if name = lentName then collect rest
    else
      let x ← back v
      let xs ← collect rest
      pure ((name, x) :: xs)
  | _ :: rest => collect rest

end Run

/-! ## Running blocks -/

/-- **An interpreter of the guest language**, with a memory of its own: what its heap and its memory are at first, and
    what running a text against a table does to the world and to its memory. Names that the table does not have are
    looked up in the library of the interpreter. The text of a failure is the one that is shown; a text that never
    stops running breaks down. -/
structure Interpreter (σ : Type) where
  heap : Heap
  memory : σ
  run : (globals : Nat) → (code : String) → World × σ → Except Failure Unit × World × σ

/-- What an interpreter keeps from block to block. -/
structure Session (σ : Type) where
  heap : Heap
  memory : σ

/-- The wording of a failure while a block runs. -/
def runtimeMessage (message : String) : String := "runtime error: " ++ message

section

variable {σ : Type} (lua : Interpreter σ)

/-- Take back what a block left in its table. -/
def finish (globals : Nat) (error : Option String) (w : World) (memory : σ) : Option Engine.Run × Session σ :=
  match Run.collect (w.heap.table globals).entries w with
  | (.ok entries, w) => (some ⟨⟨.ofList entries, error⟩, w.hosts, none⟩, ⟨w.heap, memory⟩)
  | (.error _, w) => (none, ⟨w.heap, memory⟩)

/-- **Run a block.** When a variable cannot be handed in, nothing runs and nothing changes. -/
def execute (s : Session σ) (r : Engine.Request) : Option Engine.Run × Session σ :=
  match Run.environment r.bindings r.functions ⟨s.heap, r.hosts⟩ with
  | (.error .broken, w) => (none, ⟨w.heap, s.memory⟩)
  | (.error (.error message), w) =>
    (some ⟨⟨r.bindings, some (runtimeMessage message)⟩, w.hosts, none⟩, ⟨w.heap, s.memory⟩)
  | (.ok globals, w) =>
    match lua.run globals r.code (w, s.memory) with
    | (.error .broken, w, memory) => (none, ⟨w.heap, memory⟩)
    | (.error (.error message), w, memory) => finish globals (some message) w memory
    | (.ok (), w, memory) => finish globals none w memory

/-- What an interpreter keeps after some blocks. -/
def session (ran : List Engine.Request) : Session σ := Oracle.stateAfter (execute lua) ⟨lua.heap, lua.memory⟩ ran

/-- **The guest engine** with an interpreter, after some blocks. -/
def engine (ran : List Engine.Request) : Engine := ⟨"lua", .ofSteps (execute lua) ⟨lua.heap, lua.memory⟩ ran⟩

end

end Helios.Guest
