/-!
# Source positions

Lines and columns count from one; columns count characters. A failure is located as precisely as it is
known: not at all, by the line of a statement, or by line and column.
-/

namespace Helios

/-- A place in a source text. -/
structure Position where
  line : Nat
  column : Nat
  deriving DecidableEq, Repr, Inhabited

namespace Position

/-- The first character of a text. -/
def start : Position := ⟨1, 1⟩

/-- The place after one character. -/
def step (p : Position) (c : Char) : Position :=
  if c = '\n' then ⟨p.line + 1, 1⟩ else ⟨p.line, p.column + 1⟩

/-- The place after some characters. -/
def advance (p : Position) (cs : List Char) : Position := cs.foldl step p

@[simp] theorem advance_nil (p : Position) : p.advance [] = p := rfl

@[simp] theorem advance_cons (p : Position) (c : Char) (cs : List Char) :
    p.advance (c :: cs) = (p.step c).advance cs := rfl

theorem advance_append (p : Position) (xs ys : List Char) :
    p.advance (xs ++ ys) = (p.advance xs).advance ys := List.foldl_append

/-- A position in words. -/
def describe (p : Position) : String :=
  "line " ++ toString p.line ++ ", column " ++ toString p.column

end Position

/-- **Where a failure happened**, as precisely as it is known. -/
inductive Location
  | unknown
  | line (n : Nat)
  | at (p : Position)
  deriving DecidableEq, Repr, Inhabited

namespace Location

/-- The text that precedes a message. -/
def describe : Location → String
  | unknown => ""
  | line n => "line " ++ toString n ++ ": "
  | .at p => p.describe ++ ": "

/-- The line, when it is known. -/
def line? : Location → Option Nat
  | unknown => none
  | line n => some n
  | .at p => some p.line

end Location

end Helios
