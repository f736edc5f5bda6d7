/-!
# A small guest language

The syntax trees of a small part of Lua: enough of it for an interpreter to try the guest engine with. The
engine takes any other interpreter as well, and nothing that is proved about it depends on this one. Trees
carry the line that a failure is reported at.
-/

namespace Helios.Guest.Small

/-- Operators with two operands, `and` and `or` aside. -/
inductive BinOp
  | add | sub | mul | div | floorDiv | mod | concat | eq | ne | lt | le | gt | ge
  deriving DecidableEq, Repr, Inhabited

/-- Operators with one operand. -/
inductive UnaryOp
  | neg | not | len
  deriving DecidableEq, Repr, Inhabited

/-- Constants. -/
inductive Const
  | nil
  | bool (b : Bool)
  | int (n : Int64)
  | float (x : Float)
  /-- A string is a sequence of bytes. -/
  | str (bytes : List UInt8)
  deriving Repr, Inhabited

mutual

/-- **Expressions.** -/
inductive Expr
  | const (c : Const)
  | name (s : String)
  | index (e key : Expr) (line : Nat)
  | call (f : Expr) (args : List Expr) (line : Nat)
  | table (fields : List Field)
  | unary (op : UnaryOp) (e : Expr) (line : Nat)
  | binary (op : BinOp) (left right : Expr) (line : Nat)
  | and_ (left right : Expr)
  | or_ (left right : Expr)
  | function (params : List String) (body : List Stmt)
  /-- In parentheses a call gives one value. -/
  | paren (e : Expr)

/-- A field of a table: at the next place, or under a key. -/
inductive Field
  | item (e : Expr)
  | keyed (key e : Expr) (line : Nat)

/-- **Statements.** -/
inductive Stmt
  | assign (targets values : List Expr) (line : Nat)
  | declare (names : List String) (values : List Expr)
  | declareFunction (name : String) (params : List String) (body : List Stmt)
  | call (e : Expr)
  | branch (cond : Expr) (yes no : List Stmt)
  | block (body : List Stmt)
  | return_ (values : List Expr)

end

instance : Inhabited Expr := ⟨.const .nil⟩

instance : Inhabited Stmt := ⟨.return_ []⟩

/-- Whether a field has no key. -/
def Field.isItem : Field → Bool
  | .item _ => true
  | .keyed .. => false

/-- A block of statements. -/
abbrev Block := List Stmt

/-- What failures are reported for: the name of every block. -/
def chunkName : String := "lua block"

/-- A text with the line it is reported for. -/
def atLine (line : Nat) (message : String) : String :=
  chunkName ++ ":" ++ toString line ++ ": " ++ message

end Helios.Guest.Small
