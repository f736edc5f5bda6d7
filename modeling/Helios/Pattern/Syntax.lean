/-!
# Patterns

The syntax trees of regular expressions. Every tree knows the piece of the pattern it was read from, so
that a problem found later can be shown in its place.
-/

namespace Helios.Pattern

/-- A place in a pattern; lines and columns count from one. -/
structure Mark where
  line : Nat
  column : Nat
  deriving DecidableEq, Repr, Inhabited

namespace Mark

/-- The first place. -/
def start : Mark := ⟨1, 1⟩

/-- The place after a character. -/
def after (m : Mark) (c : Char) : Mark := if c = '\n' then ⟨m.line + 1, 1⟩ else ⟨m.line, m.column + 1⟩

/-- Whether a place comes no later than another. -/
def le (a b : Mark) : Bool := a.line < b.line || (a.line == b.line && a.column ≤ b.column)

end Mark

/-- A piece of a pattern: from a place to before another. -/
structure Span where
  start : Mark
  stop : Mark
  deriving DecidableEq, Repr, Inhabited

namespace Span

/-- The empty piece at a place. -/
def point (m : Mark) : Span := ⟨m, m⟩

/-- Whether a piece lies within one line. -/
def isOneLine (s : Span) : Bool := s.start.line == s.stop.line

end Span

/-- What a pattern can switch on and off. -/
inductive Flag
  | ignoreCase | multiLine | dotAll | swapGreed | unicode | crlf | ignoreBlanks
  deriving DecidableEq, Repr, Inhabited

/-- One sign of a list of flags: a flag, or the minus that switches off those after it. -/
inductive FlagSign
  | minus
  | flag (f : Flag)
  deriving DecidableEq, Repr, Inhabited

/-- What a list of flags says about one flag. -/
def flagState? (signs : List FlagSign) (f : Flag) : Option Bool :=
  if signs.contains (.flag f) then
    some (!(signs.takeWhile (· ≠ .flag f)).contains .minus)
  else none

/-- A character that stands for itself; `isByte` when it was written with two hexadecimal digits. -/
structure Literal where
  span : Span
  char : Char
  isByte : Bool
  deriving DecidableEq, Repr, Inhabited

/-- The classes with a letter of their own. -/
inductive LetterClass
  | digit | space | word
  deriving DecidableEq, Repr, Inhabited

/-- The classes of ASCII characters with a name. -/
inductive AsciiClass
  | alnum | alpha | ascii | blank | cntrl | digit | graph | lower | print | punct | space | upper
  | word | xdigit
  deriving DecidableEq, Repr, Inhabited

/-- What a class asks of the properties of Unicode. -/
inductive Query
  | name (s : String)
  | value (property value : String)
  deriving DecidableEq, Repr, Inhabited

/-- Operations on sets of characters. -/
inductive SetOp
  | intersection | difference | symmetricDifference
  deriving DecidableEq, Repr, Inhabited

/-- **Classes of characters.** -/
inductive ClassItem
  | empty (span : Span)
  | literal (l : Literal)
  | range (span : Span) (low high : Literal)
  | ascii (span : Span) (kind : AsciiClass) (negated : Bool)
  | letter (span : Span) (kind : LetterClass) (negated : Bool)
  | property (span : Span) (query : Query) (negated : Bool)
  | bracketed (span : Span) (negated : Bool) (inner : ClassItem)
  | union (span : Span) (items : List ClassItem)
  | op (span : Span) (kind : SetOp) (left right : ClassItem)
  deriving Repr, Inhabited

namespace ClassItem

/-- The piece that a class was read from. -/
def span : ClassItem → Span
  | empty s | range s _ _ | ascii s _ _ | letter s _ _ | property s _ _ | bracketed s _ _
  | union s _ | op s _ _ _ => s
  | literal l => l.span

end ClassItem

/-- Conditions on a place between two characters. -/
inductive Assertion
  | startLine | endLine | startText | endText
  | wordBoundary | notWordBoundary | wordStart | wordEnd | wordStartHalf | wordEndHalf
  deriving DecidableEq, Repr, Inhabited

/-- **Patterns.** -/
inductive Ast
  | empty (span : Span)
  | flags (span : Span) (signs : List FlagSign)
  | literal (l : Literal)
  | dot (span : Span)
  | assertion (span : Span) (kind : Assertion)
  | cls (c : ClassItem)
  /-- From `min` to `max` times; without `max` there is no upper bound. -/
  | repetition (span : Span) (min : Nat) (max : Option Nat) (inner : Ast)
  /-- A group counts as one of the pattern's groups unless it starts with flags. -/
  | group (span : Span) (counts : Bool) (signs : List FlagSign) (inner : Ast)
  | alternation (span : Span) (branches : List Ast)
  | concat (span : Span) (items : List Ast)
  deriving Repr, Inhabited

namespace Ast

/-- The piece that a pattern was read from. -/
def span : Ast → Span
  | empty s | flags s _ | dot s | assertion s _ | repetition s _ _ _ | group s _ _ _ | alternation s _
  | concat s _ => s
  | literal l => l.span
  | cls c => c.span

end Ast

end Helios.Pattern
