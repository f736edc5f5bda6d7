import Helios.Expr
import Helios.Command

/-!
# Statements

The syntax trees of statements. Every statement carries the line it starts on; an `elif` is an `if`
that is the only statement of the `else` block of the one before it.
-/

namespace Helios

/-- A piece of syntax and the line it starts on. -/
structure Located (α : Type) where
  line : Nat
  node : α
  deriving Repr, Inhabited

/-- What fills a position of a command. -/
inductive Positional
  /-- A literal name: of a window, a widget or a key. -/
  | name (s : String)
  | expr (e : Expr)
  deriving Repr, Inhabited

namespace Positional

/-- The shape of a position. -/
def outline : Positional → Outline
  | name s => .tuple "Name" [.text s]
  | expr e => .tuple "Expr" [e.outline]

end Positional

/-- A clause of a command. -/
inductive Clause
  | values (kind : ClauseKind) (es : List Expr)
  /-- Store the answer of the command in a variable. -/
  | into (name : String)
  /-- Call a function when the event happens. -/
  | run (function : String) (args : List Expr)
  deriving Repr, Inhabited

namespace Clause

/-- The word that introduces a clause. -/
def kind : Clause → ClauseKind
  | values k _ => k
  | into _ => .into_
  | run .. => .do_

/-- The shape of a clause. -/
def outline : Clause → Outline
  | values k es => .tuple "Value" [.atom k.label, .list (Expr.outlines es)]
  | into name => .tuple "Into" [.text name]
  | run function args =>
    .record "Do" [("func", .text function), ("args", .list (Expr.outlines args))]

end Clause

/-- A command as written. -/
structure CommandStmt where
  surface : Surface
  verb : String
  positionals : List Positional
  clauses : List Clause
  deriving Repr, Inhabited

namespace CommandStmt

/-- The shape of a command. -/
def outline (c : CommandStmt) : Outline :=
  .record "FrontendStmt"
    [("surface", .atom c.surface.label), ("verb", .text c.verb),
     ("positionals", .list (c.positionals.map Positional.outline)),
     ("clauses", .list (c.clauses.map Clause.outline))]

end CommandStmt

/-- **Statements.** -/
inductive Stmt
  | assign (name : String) (value : Expr)
  | print (args : List Expr)
  | branch (cond : Expr) (yes no : List (Located Stmt))
  | while_ (cond : Expr) (body : List (Located Stmt))
  | for_ (var : String) (items : Expr) (body : List (Located Stmt))
  | define (name : String) (params : List String) (body : List (Located Stmt))
  | call (callee : Expr) (args : List Expr)
  | return_ (value : Option Expr)
  | break_
  | continue_
  | contain (path : String)
  | passthrough (language code : String)
  | command (c : CommandStmt)
  deriving Repr, Inhabited

/-- A sequence of statements. -/
abbrev Block := List (Located Stmt)

namespace Stmt

mutual

/-- The shape of a statement. -/
def outline : Stmt → Outline
  | assign name value => .record "Let" [("name", .text name), ("value", value.outline)]
  | print args => .tuple "Print" [.list (Expr.outlines args)]
  | branch cond yes no =>
    .record "If" [("cond", cond.outline), ("then_block", .list (blockOutlines yes)),
      ("else_block", .list (blockOutlines no))]
  | while_ cond body => .record "While" [("cond", cond.outline), ("body", .list (blockOutlines body))]
  | for_ var items body =>
    .record "For" [("var", .text var), ("iter", items.outline), ("body", .list (blockOutlines body))]
  | define name params body =>
    .record "Def" [("name", .text name), ("params", .list (params.map Outline.text)),
      ("body", .list (blockOutlines body))]
  | call callee args => .tuple "Call" [(Expr.call callee args).outline]
  | return_ value => .tuple "Return" [.option (value.map Expr.outline)]
  | break_ => .atom "Break"
  | continue_ => .atom "Continue"
  | contain path => .tuple "Import" [.text path]
  | passthrough language code =>
    .record "Passthrough" [("language", .text language), ("code", .text code)]
  | command c => .tuple "Frontend" [c.outline]

/-- The shapes of the statements of a block, with their lines. -/
def blockOutlines : List (Located Stmt) → List Outline
  | [] => []
  | ⟨line, s⟩ :: rest =>
    .record "Stmt" [("kind", s.outline), ("line", .nat line)] :: blockOutlines rest

end

end Stmt

end Helios
