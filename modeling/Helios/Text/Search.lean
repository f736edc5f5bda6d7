/-!
# Searching in texts

Finding, splitting and replacing parts of a text, all from left to right and without overlaps.
-/

namespace Helios.Text

/-- The place of the first occurrence of `needle`, counted from `i`. -/
def findFrom (needle : List Char) (i : Nat) : List Char → Option Nat
  | [] => if needle.isEmpty then some i else none
  | c :: cs => if needle.isPrefixOf (c :: cs) then some i else findFrom needle (i + 1) cs

/-- The place of the first occurrence of `needle`. -/
def find? (needle cs : List Char) : Option Nat := findFrom needle 0 cs

/-- Whether `needle` occurs. -/
def contains (needle : List Char) : List Char → Bool
  | [] => needle.isEmpty
  | c :: cs => needle.isPrefixOf (c :: cs) || contains needle cs

/-- The parts between occurrences of `sep`; `fuel` bounds their number. -/
def splitParts (sep : List Char) : Nat → List Char → List (List Char)
  | 0, cs => [cs]
  | fuel + 1, cs =>
    match find? sep cs with
    | none => [cs]
    | some i => cs.take i :: splitParts sep fuel (cs.drop (i + sep.length))

/-- The parts between the occurrences of a nonempty `sep`. -/
def split (sep cs : List Char) : List (List Char) := splitParts sep (cs.length + 1) cs

/-- Put `new` in the place of occurrences of `old`; `fuel` bounds their number. -/
def replaceParts (old new : List Char) : Nat → List Char → List Char
  | 0, cs => cs
  | fuel + 1, cs =>
    match find? old cs with
    | none => cs
    | some i => cs.take i ++ new ++ replaceParts old new fuel (cs.drop (i + old.length))

/-- Put `new` in the place of every occurrence of a nonempty `old`. -/
def replace (old new cs : List Char) : List Char := replaceParts old new (cs.length + 1) cs

/-- `n` copies of a text, one after the other. -/
def copies (n : Nat) (s : String) : String :=
  if s.isEmpty then "" else n.repeat (fun acc => acc ++ s) ""

end Helios.Text
