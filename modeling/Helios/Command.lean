/-!
# Window and game commands

Statements that start with `ui` or `game` are commands to a surface: a verb, some positions to fill and
some clauses introduced by a word. `Verb.all` lists what each verb takes; the parser accepts exactly
that.
-/

namespace Helios

/-- What a command is addressed to. -/
inductive Surface
  | ui | game
  deriving DecidableEq, Repr, Inhabited

namespace Surface

/-- The keyword of a surface. -/
def text : Surface → String
  | ui => "ui"
  | game => "game"

/-- The name of a surface in outlines. -/
def label : Surface → String
  | ui => "Ui"
  | game => "Game"

end Surface

/-- The words that introduce a clause. -/
inductive ClauseKind
  | at_ | from_ | to_ | color | title | size | frames | into_ | do_
  deriving DecidableEq, Repr, Inhabited

namespace ClauseKind

/-- The word of a clause. -/
def text : ClauseKind → String
  | at_ => "at"
  | from_ => "from"
  | to_ => "to"
  | color => "color"
  | title => "title"
  | size => "size"
  | frames => "frames"
  | into_ => "into"
  | do_ => "do"

/-- The name of a clause in outlines. -/
def label : ClauseKind → String
  | at_ => "At"
  | from_ => "From"
  | to_ => "To"
  | color => "Color"
  | title => "Title"
  | size => "Size"
  | frames => "Frames"
  | into_ => "Into"
  | do_ => "Do"

/-- Every clause. -/
def all : List ClauseKind := [at_, from_, to_, color, title, size, frames, into_, do_]

/-- The clause a word introduces. -/
def ofText? (s : String) : Option ClauseKind := all.find? fun k => k.text == s

/-- The number of values a clause takes. -/
def valueCount : ClauseKind → Nat
  | at_ | size => 2
  | _ => 1

end ClauseKind

/-- What a position of a command holds: a literal name, or an expression. -/
inductive Slot
  | name | expr
  deriving DecidableEq, Repr

/-- **What a verb takes.** -/
structure Verb where
  surface : Surface
  name : String
  slots : List Slot
  required : List ClauseKind
  optional : List ClauseKind
  deriving DecidableEq, Repr

namespace Verb

/-- Every verb of both surfaces. -/
def all : List Verb :=
  [⟨.ui, "window", [.name], [], [.title, .size]⟩,
   ⟨.ui, "title", [.name, .expr], [], []⟩,
   ⟨.ui, "size", [.name, .expr, .expr], [], []⟩,
   ⟨.ui, "bg", [.name, .expr], [], []⟩,
   ⟨.ui, "fg", [.name, .expr], [], []⟩,
   ⟨.ui, "label", [.name, .name, .expr], [.at_], [.color]⟩,
   ⟨.ui, "button", [.name, .name, .expr], [.at_, .do_], [.color]⟩,
   ⟨.ui, "entry", [.name, .name], [.at_], []⟩,
   ⟨.ui, "slider", [.name, .name], [.from_, .to_, .at_], []⟩,
   ⟨.ui, "checkbox", [.name, .name, .expr], [.at_], [.color]⟩,
   ⟨.ui, "bind", [.name, .name], [.do_], []⟩,
   ⟨.ui, "text", [.name, .expr], [], []⟩,
   ⟨.ui, "set", [.name, .expr], [], []⟩,
   ⟨.ui, "get", [.name], [.into_], []⟩,
   ⟨.ui, "run", [.name], [], []⟩,
   ⟨.game, "window", [.expr, .expr], [], [.title]⟩,
   ⟨.game, "clear", [], [], [.color]⟩,
   ⟨.game, "rect", [.expr, .expr, .expr, .expr], [], [.color]⟩,
   ⟨.game, "circle", [.expr, .expr, .expr], [], [.color]⟩,
   ⟨.game, "line", [.expr, .expr, .expr, .expr], [], [.color]⟩,
   ⟨.game, "text", [.expr], [.at_], [.color]⟩,
   ⟨.game, "sound", [.expr], [], []⟩,
   ⟨.game, "key", [.name], [.do_], []⟩,
   ⟨.game, "tick", [], [.do_], []⟩,
   ⟨.game, "run", [], [], [.frames]⟩,
   ⟨.game, "quit", [], [], []⟩]

/-- The verb of a surface with a given name. -/
def find? (surface : Surface) (name : String) : Option Verb :=
  all.find? fun v => v.surface == surface && v.name == name

/-- Whether a verb takes a clause. -/
def takes (v : Verb) (k : ClauseKind) : Bool := v.required.contains k || v.optional.contains k

/-- Surface and verb, as messages name a command. -/
def title (v : Verb) : String := v.surface.text ++ " " ++ v.name

end Verb

end Helios
