import Helios.Pattern.Syntax
import Helios.Text.Lines

/-!
# Problems with patterns

What can be wrong with a pattern, and the report that shows the pattern with the place underlined.
-/

namespace Helios.Pattern

/-- The deepest nesting of groups, repetitions and classes. -/
def maxNesting : Nat := 250

/-- The largest automaton, in bytes. -/
def sizeLimit : Nat := 10485760

/-- What can be wrong at a place of a pattern. -/
inductive Issue
  | classEscape | classRange | classRangeLiteral | classUnclosed
  | decimalEmpty | decimalInvalid
  | hexEmpty | hexInvalid | hexDigit
  | escapeEnd | escapeUnknown
  | flagDanglingMinus | flagDuplicate | flagRepeatedMinus | flagEnd | flagUnknown
  | nameDuplicate | nameEmpty | nameInvalid | nameEnd
  | groupUnclosed | groupUnopened
  | tooDeep
  | countInvalid | countEmpty | countUnclosed | repetitionMissing
  | boundaryUnclosed | boundaryUnknown | boundaryEnd
  | unicodeClass | backreference | lookAround
  | unicodeNotAllowed | invalidEncoding | propertyUnknown | propertyValueUnknown
  deriving DecidableEq, Repr, Inhabited

namespace Issue

/-- The wording of an issue. -/
def message : Issue → String
  | classEscape => "invalid escape sequence found in character class"
  | classRange => "invalid character class range, the start must be <= the end"
  | classRangeLiteral => "invalid range boundary, must be a literal"
  | classUnclosed => "unclosed character class"
  | decimalEmpty => "decimal literal empty"
  | decimalInvalid => "decimal literal invalid"
  | hexEmpty => "hexadecimal literal empty"
  | hexInvalid => "hexadecimal literal is not a Unicode scalar value"
  | hexDigit => "invalid hexadecimal digit"
  | escapeEnd => "incomplete escape sequence, reached end of pattern prematurely"
  | escapeUnknown => "unrecognized escape sequence"
  | flagDanglingMinus => "dangling flag negation operator"
  | flagDuplicate => "duplicate flag"
  | flagRepeatedMinus => "flag negation operator repeated"
  | flagEnd => "expected flag but got end of regex"
  | flagUnknown => "unrecognized flag"
  | nameDuplicate => "duplicate capture group name"
  | nameEmpty => "empty capture group name"
  | nameInvalid => "invalid capture group character"
  | nameEnd => "unclosed capture group name"
  | groupUnclosed => "unclosed group"
  | groupUnopened => "unopened group"
  | tooDeep =>
    "exceed the maximum number of nested parentheses/brackets (" ++ toString maxNesting ++ ")"
  | countInvalid => "invalid repetition count range, the start must be <= the end"
  | countEmpty => "repetition quantifier expects a valid decimal"
  | countUnclosed => "unclosed counted repetition"
  | repetitionMissing => "repetition operator missing expression"
  | boundaryUnclosed =>
    "special word boundary assertion is either unclosed or contains an invalid character"
  | boundaryUnknown =>
    "unrecognized special word boundary assertion, valid choices are: start, end, start-half or end-half"
  | boundaryEnd =>
    "found either the beginning of a special word boundary or a bounded repetition on a \\b with "
      ++ "an opening brace, but no closing brace"
  | unicodeClass => "invalid Unicode character class"
  | backreference => "backreferences are not supported"
  | lookAround => "look-around, including look-ahead and look-behind, is not supported"
  | unicodeNotAllowed => "Unicode not allowed here"
  | invalidEncoding => "pattern can match invalid UTF-8"
  | propertyUnknown => "Unicode property not found"
  | propertyValueUnknown => "Unicode property value not found"

end Issue

/-- **Why a pattern is refused.** -/
inductive Problem
  /-- An issue at a place; `first` is where the same thing stood before. -/
  | at_ (span : Span) (issue : Issue) (first : Option Span)
  | tooLarge
  deriving Repr, Inhabited

namespace Problem

/-! ## The report -/

/-- The lines of a pattern. The text after the last line break is a line only if it is not empty. -/
def lines (pattern : List Char) : List (List Char) :=
  match (Text.splitLines pattern).reverse with
  | [] :: before => before.reverse.map Text.dropReturn
  | last :: before => before.reverse.map Text.dropReturn ++ [last]
  | [] => []

/-- Spans in the order of their starts. -/
def sortSpans : List Span → List Span
  | [a, b] => if a.start.le b.start then [a, b] else [b, a]
  | spans => spans

/-- Carets below the spans of a line, from column `column` on. -/
def carets (column : Nat) : List Span → List Char
  | [] => []
  | s :: rest =>
    let blanks := s.start.column - column
    let width := max 1 (s.stop.column - s.start.column)
    List.replicate blanks ' ' ++ List.replicate width '^' ++ carets (column + blanks + width) rest

/-- A pattern with the spans of each line underlined. Lines are numbered when `width` is not zero. -/
def underlined (spans : List Span) (width : Nat) : Nat → List (List Char) → List Char
  | _, [] => []
  | n, line :: rest =>
    let digits := (toString n).toList
    let head := if width = 0 then [' ', ' ', ' ', ' ']
      else List.replicate (width - digits.length) ' ' ++ digits ++ [':', ' ']
    let here := sortSpans (spans.filter fun s => s.isOneLine && s.start.line == n)
    let notes := if here.isEmpty then []
      else List.replicate (if width = 0 then 4 else width + 2) ' ' ++ carets 1 here ++ ['\n']
    head ++ line ++ '\n' :: notes ++ underlined spans width (n + 1) rest

/-- Where a span of several lines lies. -/
def multiLineNote (s : Span) : String :=
  "on line " ++ toString s.start.line ++ " (column " ++ toString s.start.column ++ ") through line "
    ++ toString s.stop.line ++ " (column " ++ toString (s.stop.column - 1) ++ ")"

/-- The report on an issue. -/
def report (pattern : List Char) (spans : List Span) (issue : Issue) : String :=
  let count := (lines pattern).length + if pattern.getLast? = some '\n' then 1 else 0
  let width := if count ≤ 1 then 0 else (toString count).length
  let shown := String.ofList (underlined spans width 1 (lines pattern))
  if pattern.contains '\n' then
    let divider := String.ofList (List.replicate 79 '~') ++ "\n"
    let multi := sortSpans (spans.filter fun s => !s.isOneLine)
    let notes := if multi.isEmpty then ""
      else String.intercalate "\n" (multi.map multiLineNote) ++ "\n"
    "regex parse error:\n" ++ divider ++ shown ++ divider ++ notes ++ "error: " ++ issue.message
  else "regex parse error:\n" ++ shown ++ "error: " ++ issue.message

/-- The wording of a problem with a pattern. -/
def message (pattern : List Char) : Problem → String
  | at_ span issue first => report pattern (span :: first.toList) issue
  | tooLarge => "Compiled regex exceeds size limit of " ++ toString sizeLimit ++ " bytes."

end Problem

end Helios.Pattern
