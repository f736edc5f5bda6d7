import Helios.Guest.Heap
import Helios.Module
import Helios.Text.Bytes

/-!
# Values on their way to the guest and back

Lists become tables with the places from 1 on, and dicts become tables with their keys; a `nil` in
either leaves no entry. Functions of the host become their names. A table whose keys are exactly the
places from 1 on comes back as a list, and any other as a dict. Functions of the guest come back as
objects, and are themselves again when they are handed in.

Nobody stops a table from holding itself. Taking such a table back does not come to an end, and the
program breaks down over it.
-/

namespace Helios.Guest

/-- What a run changes: the heap, and the objects that were made. -/
structure World where
  heap : Heap
  hosts : Hosts

/-- Why a run has no value. -/
inductive Failure
  | error (message : String)
  /-- It does not come to an end. -/
  | broken
  deriving Repr, Inhabited

/-- A computation on the world. -/
abbrev Run := ExceptT Failure (StateM World)

namespace Run

/-- Read the heap. -/
def heap : Run Heap := fun w => (.ok w.heap, w)

/-- Change the heap. -/
def update {α : Type} (f : Heap → α × Heap) : Run α := fun w =>
  let (a, heap) := f w.heap
  (.ok a, { w with heap })

/-! ## To the guest -/

mutual

/-- A value for the guest. Objects of the host cannot be handed in. -/
def toGuest : Value → Run Val
  | .nil => pure .nil
  | .bool b => pure (.bool b)
  | .int n => pure (.int n)
  | .float x => pure (.float x)
  | .str s => pure (.ofString s)
  | .func name => pure (.ofString name)
  | .list items => do
    let vs ← toGuestItems items
    let id ← update (·.newTable (.ofItems vs))
    pure (.table id)
  | .dict pairs => do
    let t ← toGuestPairs .empty pairs
    let id ← update (·.newTable t)
    pure (.table id)
  | .host (.guest _ function) => pure (.function function)
  | .host ref => throw (.error (ref.typeName ++ " `" ++ ref.name ++ "` cannot be passed to Lua"))

/-- Some values for the guest. -/
def toGuestItems : List Value → Run (List Val)
  | [] => pure []
  | v :: rest => do
    let g ← toGuest v
    let gs ← toGuestItems rest
    pure (g :: gs)

/-- Some entries for the guest, into a table. -/
def toGuestPairs : Table → List (Value × Value) → Run Table
  | t, [] => pure t
  | t, (k, v) :: rest => do
    let key ← toGuest k
    let g ← toGuest v
    match t.set key g with
    | .ok t => toGuestPairs t rest
    | .error message => throw (.error message)

end

/-! ## Back from the guest -/

mutual

/-- A value from the guest. Every table inside of another one takes fuel; without any there is no value. -/
def ofGuest (h : Heap) : Nat → Val → StateT Hosts Option Value
  | _, .nil => pure .nil
  | _, .bool b => pure (.bool b)
  | _, .int n => pure (.int n)
  | _, .float x => pure (.float x)
  | _, .str bytes => pure (.str (Text.decode ⟨bytes.toArray⟩))
  | _, .function function => do
    let (id, hosts) := (← get).fresh
    set hosts
    pure (.host (.guest id function))
  | 0, .table _ => failure
  | n + 1, .table id =>
    match (h.table id).items? with
    | some vs => return .list (← ofGuestItems h n vs)
    | none => return .dict (← ofGuestPairs h n (h.table id).inOrder)

/-- Some values from the guest. -/
def ofGuestItems (h : Heap) : Nat → List Val → StateT Hosts Option (List Value)
  | _, [] => pure []
  | n, v :: rest => do
    let x ← ofGuest h n v
    let xs ← ofGuestItems h n rest
    pure (x :: xs)

/-- Some entries from the guest. -/
def ofGuestPairs (h : Heap) : Nat → List (Val × Val) → StateT Hosts Option (List (Value × Value))
  | _, [] => pure []
  | n, (k, v) :: rest => do
    let key ← ofGuest h n k
    let x ← ofGuest h n v
    let es ← ofGuestPairs h n rest
    pure ((key, x) :: es)

end

/-- A value from the guest. Tables that nest deeper than there are tables hold themselves. -/
def back (v : Val) : Run Value := fun w =>
  match ofGuest w.heap (w.heap.tables.size + 1) v w.hosts with
  | some (x, hosts) => (.ok x, { w with hosts })
  | none => (.error .broken, w)

/-- Some values from the guest. -/
def backAll : List Val → Run (List Value)
  | [] => pure []
  | v :: rest => do
    let x ← back v
    let xs ← backAll rest
    pure (x :: xs)

/-! ## Functions of the host -/

/-- Call a function that the host lends. -/
def callLent (name : String) (arity : Arity) (run : Builtin.PureBody) (args : List Val) : Run Val := do
  let values ← backAll args
  let result := do
    arity.check name values.length
    run values
  match result with
  | .ok v => toGuest v
  | .error c => throw (.error c.message)

end Run

end Helios.Guest
