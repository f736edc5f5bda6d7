import Helios.Outline
import Helios.Decimal.Layout

/-!
# Expressions

The syntax trees of expressions, their written form with every binary and unary operation in
parentheses, and their outline.
-/

namespace Helios

/-- A literal. -/
inductive Literal
  | nil
  | bool (b : Bool)
  | int (n : Int64)
  | float (x : Float)
  | str (s : String)
  deriving Repr, Inhabited

namespace Literal

/-- The written form of a literal. -/
def render : Literal → String
  | nil => "nil"
  | bool b => if b then "true" else "false"
  | int n => toString n.toInt
  | float x => Decimal.Layout.value.write x
  | str s => Text.quote s

/-- The shape of a literal. -/
def outline : Literal → Outline
  | nil => .atom "Nil"
  | bool b => .tuple "Bool" [.atom (if b then "true" else "false")]
  | int n => .tuple "Int" [.atom (toString n.toInt)]
  | float x => .tuple "Float" [.atom (Decimal.Layout.tree.write x)]
  | str s => .tuple "Str" [.text s]

end Literal

/-- Binary operators. -/
inductive BinOp
  | add | sub | mul | div | rem | eq | ne | lt | le | gt | ge | and | or
  deriving DecidableEq, Repr, Inhabited

namespace BinOp

/-- The spelling of an operator. -/
def text : BinOp → String
  | add => "+"
  | sub => "-"
  | mul => "*"
  | div => "/"
  | rem => "%"
  | eq => "=="
  | ne => "!="
  | lt => "<"
  | le => "<="
  | gt => ">"
  | ge => ">="
  | and => "and"
  | or => "or"

/-- The name of an operator in outlines. -/
def label : BinOp → String
  | add => "Add"
  | sub => "Sub"
  | mul => "Mul"
  | div => "Div"
  | rem => "Rem"
  | eq => "Eq"
  | ne => "Ne"
  | lt => "Lt"
  | le => "Le"
  | gt => "Gt"
  | ge => "Ge"
  | and => "And"
  | or => "Or"

end BinOp

/-- Unary operators. -/
inductive UnaryOp
  | neg | not
  deriving DecidableEq, Repr, Inhabited

namespace UnaryOp

/-- The spelling of an operator, up to its operand. -/
def text : UnaryOp → String
  | neg => "-"
  | not => "not "

/-- The name of an operator in outlines. -/
def label : UnaryOp → String
  | neg => "Neg"
  | not => "Not"

end UnaryOp

/-- **Expressions.** -/
inductive Expr
  | literal (l : Literal)
  | var (name : String)
  | unary (op : UnaryOp) (e : Expr)
  | binary (op : BinOp) (left right : Expr)
  | call (callee : Expr) (args : List Expr)
  | list (items : List Expr)
  | dict (pairs : List (Expr × Expr))
  | index (e i : Expr)
  | member (e : Expr) (name : String)
  deriving Repr, Inhabited

namespace Expr

open Outline (commas)

mutual

/-- The written form of an expression. -/
def render : Expr → String
  | literal l => l.render
  | var name => name
  | unary op e => "(" ++ op.text ++ e.render ++ ")"
  | binary op left right => "(" ++ left.render ++ " " ++ op.text ++ " " ++ right.render ++ ")"
  | call callee args => callee.render ++ "(" ++ commas (renderAll args) ++ ")"
  | list items => "[" ++ commas (renderAll items) ++ "]"
  | dict pairs => "\x7b" ++ commas (renderPairs pairs) ++ "\x7d"
  | index e i => e.render ++ "[" ++ i.render ++ "]"
  | member e name => e.render ++ "." ++ name

/-- The written forms of some expressions. -/
def renderAll : List Expr → List String
  | [] => []
  | e :: rest => e.render :: renderAll rest

/-- The written forms of some entries. -/
def renderPairs : List (Expr × Expr) → List String
  | [] => []
  | (k, v) :: rest => (k.render ++ ": " ++ v.render) :: renderPairs rest

end

mutual

/-- The shape of an expression. -/
def outline : Expr → Outline
  | literal l => .tuple "Literal" [l.outline]
  | var name => .tuple "Var" [.text name]
  | unary op e => .tuple "Unary" [.atom op.label, e.outline]
  | binary op left right => .tuple "Binary" [.atom op.label, left.outline, right.outline]
  | call callee args => .tuple "Call" [callee.outline, .list (outlines args)]
  | list items => .tuple "List" [.list (outlines items)]
  | dict pairs => .tuple "Dict" [.list (pairOutlines pairs)]
  | index e i => .tuple "Index" [e.outline, i.outline]
  | member e name => .tuple "Member" [e.outline, .text name]

/-- The shapes of some expressions. -/
def outlines : List Expr → List Outline
  | [] => []
  | e :: rest => e.outline :: outlines rest

/-- The shapes of some entries. -/
def pairOutlines : List (Expr × Expr) → List Outline
  | [] => []
  | (k, v) :: rest => .tuple "" [k.outline, v.outline] :: pairOutlines rest

end

end Expr

end Helios
