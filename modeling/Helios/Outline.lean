import Helios.Text.Printable

/-!
# Outlines

An outline is the shape of a piece of data in words: names of constructors, names of fields, and atoms.
It is written on one line, or spread over several with one part to a line.
-/

namespace Helios

/-- **The shape of a piece of data.** -/
inductive Outline
  | atom (text : String)
  /-- A constructor, or nothing, before parts in parentheses. -/
  | tuple (name : String) (items : List Outline)
  | list (items : List Outline)
  /-- A constructor before named parts in braces. -/
  | record (name : String) (fields : List (String × Outline))
  deriving Repr, Inhabited

namespace Outline

/-- A quoted text. -/
def text (s : String) : Outline := .atom (Text.quote s)

/-- A number. -/
def nat (n : Nat) : Outline := .atom (toString n)

/-- A part that may be missing. -/
def option : Option Outline → Outline
  | none => .atom "None"
  | some o => .tuple "Some" [o]

/-- Parts separated by commas. -/
def commas (parts : List String) : String := String.intercalate ", " parts

mutual

/-- An outline on one line. -/
def oneLine : Outline → String
  | atom text => text
  | tuple name items => name ++ "(" ++ commas (oneLines items) ++ ")"
  | list items => "[" ++ commas (oneLines items) ++ "]"
  | record name fields => name ++ " \x7b " ++ commas (oneLineFields fields) ++ " \x7d"

/-- Each of some outlines on one line. -/
def oneLines : List Outline → List String
  | [] => []
  | o :: rest => o.oneLine :: oneLines rest

/-- Each of some named outlines on one line. -/
def oneLineFields : List (String × Outline) → List String
  | [] => []
  | (name, o) :: rest => (name ++ ": " ++ o.oneLine) :: oneLineFields rest

end

/-- The lines of one part inside an enclosing outline: indented, and ended by a comma. -/
def nested : List String → List String
  | [] => []
  | [line] => ["    " ++ line ++ ","]
  | line :: rest => ("    " ++ line) :: nested rest

/-- Put a label in front of the first line. -/
def labelled (label : String) : List String → List String
  | [] => []
  | line :: rest => (label ++ line) :: rest

mutual

/-- An outline with one part to a line. -/
def lines : Outline → List String
  | atom text => [text]
  | tuple name items => (name ++ "(") :: (partLines items ++ [")"])
  | list [] => ["[]"]
  | list (o :: rest) => "[" :: (partLines (o :: rest) ++ ["]"])
  | record name fields => (name ++ " \x7b") :: (fieldLines fields ++ ["\x7d"])

/-- The lines of some parts. -/
def partLines : List Outline → List String
  | [] => []
  | o :: rest => nested o.lines ++ partLines rest

/-- The lines of some named parts. -/
def fieldLines : List (String × Outline) → List String
  | [] => []
  | (name, o) :: rest => nested (labelled (name ++ ": ") o.lines) ++ fieldLines rest

end

/-- An outline spread over several lines. -/
def spread (o : Outline) : String := String.intercalate "\n" o.lines

end Outline

end Helios
