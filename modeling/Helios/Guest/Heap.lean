import Helios.Guest.Table
import Helios.Builtin.Args
import Helios.Arity

/-!
# The heap of the guest language

Tables and functions are known by their numbers in a heap. Nothing is ever given back to the heap.
-/

namespace Helios.Guest

/-- **A function**: lent by the host, or one of the guest's own, which only its interpreter knows how to call. -/
inductive Function
  | lent (name : String) (arity : Arity) (run : Builtin.PureBody)
  | own

instance : Inhabited Function := ⟨.own⟩

/-- **The heap.** -/
structure Heap where
  tables : Array Table
  functions : Array Function

namespace Heap

/-- A heap without tables and functions. -/
def initial : Heap := ⟨#[], #[]⟩

/-- A table by its number. -/
def table (h : Heap) (id : Nat) : Table := h.tables.getD id .empty

/-- Put a table in the place of another. -/
def setTable (h : Heap) (id : Nat) (t : Table) : Heap := { h with tables := h.tables.setIfInBounds id t }

/-- Make a table. -/
def newTable (h : Heap) (t : Table) : Nat × Heap :=
  (h.tables.size, { h with tables := h.tables.push t })

/-- Make a function. -/
def newFunction (h : Heap) (f : Function) : Nat × Heap :=
  (h.functions.size, { h with functions := h.functions.push f })

end Heap

end Helios.Guest
