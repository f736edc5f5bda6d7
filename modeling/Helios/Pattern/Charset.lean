import Helios.Pattern.Problem
import Helios.Text.Age
import Helios.Text.Folding
import Helios.Text.Segment

/-!
# Sets of characters

What a class of a pattern stands for.
-/

namespace Helios.Pattern

/-- **A set of characters.** -/
abbrev Charset := Text.Ranges

namespace Charset

/-- One character. -/
def single (c : Char) : Charset := .ofPoints [c.toNat]

/-- All characters between two, both included. -/
def range (low high : Char) : Charset := ⟨#[(low.toNat, high.toNat)]⟩

/-- No character. -/
def nothing : Charset := ⟨#[]⟩

/-- Every character. -/
def all : Charset := nothing.compl

/-- What is in just one of two sets. -/
def symm (a b : Charset) : Charset := (a.diff b).union (b.diff a)

/-! ## Named classes -/

/-- The ASCII characters of a named class. -/
def ascii : AsciiClass → Charset
  | .alnum => .ofText "30-39 41-5A 61-7A"
  | .alpha => .ofText "41-5A 61-7A"
  | .ascii => .ofText "0-7F"
  | .blank => .ofText "9 20"
  | .cntrl => .ofText "0-1F 7F"
  | .digit => .ofText "30-39"
  | .graph => .ofText "21-7E"
  | .lower => .ofText "61-7A"
  | .print => .ofText "20-7E"
  | .punct => .ofText "21-2F 3A-40 5B-60 7B-7E"
  | .space => .ofText "9-D 20"
  | .upper => .ofText "41-5A"
  | .word => .ofText "30-39 41-5A 5F 61-7A"
  | .xdigit => .ofText "30-39 41-46 61-66"

/-- The characters of a class with a letter of its own. -/
def letter (unicode : Bool) : LetterClass → Charset
  | .digit => if unicode then Text.Category.nd.points else ascii .digit
  | .space => if unicode then Text.blanks else ascii .space
  | .word => if unicode then Text.wordChars else ascii .word

/-! ## Properties by name -/

/-- A name without what does not count: a leading `is`, blanks, hyphens, underscores, case, and
    characters outside of ASCII. -/
def normalizeName (s : String) : String :=
  let cs := s.toList
  let body := match cs with
    | c :: d :: rest =>
      if c.toLower = 'i' ∧ d.toLower = 's' then rest else cs
    | _ => cs
  let kept := (body.filter fun c => c != ' ' && c != '_' && c != '-' && c.toNat < 128).map Char.toLower
  if body.length < cs.length ∧ kept = ['c'] then "isc" else String.ofList kept

/-- The characters of no general category. -/
def unassigned : Charset := Text.Category.assigned.compl

/-- The set of a general category, or of a group of them, by its normalized name. Surrogates are no
    characters, so there is no set of them. -/
def category? (name : String) : Option (Except Issue Charset) :=
  match name with
  | "any" => some (.ok all)
  | "assigned" => some (.ok Text.Category.assigned)
  | "ascii" => some (.ok (ascii .ascii))
  | "cn" | "unassigned" => some (.ok unassigned)
  | "c" | "other" => some (.ok (unassigned.union (Text.Category.anyOf [.cc, .cf, .co])))
  | _ =>
    match Text.Category.all.find? fun g => g.names.contains name with
    | some .cs => some (.error .propertyValueUnknown)
    | some g => some (.ok g.points)
    | none =>
      (Text.Category.groups.find? fun e => e.1.contains name).map fun e =>
        .ok (Text.Category.anyOf e.2)

/-- The set of a script by its normalized name. -/
def script? (name : String) : Option (Except Issue Charset) :=
  match Text.Script.find? name with
  | some s => some (.ok s.points)
  | none =>
    if Text.Script.emptyNames.contains name then some (.error .propertyValueUnknown) else none

/-- One of some properties by its normalized name. -/
def among (properties : List Text.Property) (name : String) : Option Charset :=
  (Text.Property.find? name properties).map Text.Property.points

/-- The set of a value of a property, both by their normalized names. -/
def value? (property value : String) : Option (Except Issue Charset) :=
  match property with
  | "gc" | "generalcategory" => category? value
  | "sc" | "script" => script? value
  | "scx" | "scriptextensions" => (Text.Script.find? value).map fun s => .ok s.used
  | "age" => (Text.assignedBy? value).map .ok
  | "gcb" | "graphemeclusterbreak" => (among Text.graphemeBreaks value).map .ok
  | "wb" | "wordbreak" => (among Text.wordBreaks value).map .ok
  | "sb" | "sentencebreak" => (among Text.sentenceBreaks value).map .ok
  | _ => none

/-- The set that a query asks for. A single name is a property, a category or a script, in this
    order; with a value, it says which property the value is one of. -/
def query : Query → Except Issue Charset
  | .name s =>
    let name := normalizeName s
    match among Text.Property.all name with
    | some set => .ok set
    | none => ((category? name).or (script? name)).getD (.error .propertyUnknown)
  | .value property value =>
    let property := normalizeName property
    if Text.Property.isKnown property then
      (value? property (normalizeName value)).getD (.error .propertyValueUnknown)
    else .error .propertyUnknown

end Charset

end Helios.Pattern
