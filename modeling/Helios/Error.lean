import Helios.Token
import Helios.Arity

/-!
# Failures

Every failure has a cause and a location. The causes are data; the wording of each stands once, in a
`message` function, and `Error.message` puts kind and location in front of it.
-/

namespace Helios

/-- **The deepest nesting** of expressions, and of blocks, that the parsers accept. -/
def maxNesting : Nat := 256

/-- What the lexer can find wrong. -/
inductive LexIssue
  | unterminatedString
  | malformedNumber (text : String)
  | unexpectedChar (c : Char)
  | unclosedFence (opener closer : String)
  deriving DecidableEq, Repr

namespace LexIssue

/-- The wording of a lexical failure. -/
def message : LexIssue → String
  | unterminatedString => "unterminated string"
  | malformedNumber text => "malformed number `" ++ text ++ "`"
  | unexpectedChar c => "unexpected character `" ++ c.toString ++ "`"
  | unclosedFence opener closer =>
    "`" ++ opener ++ "` block is missing its closing `" ++ closer ++ "`"

end LexIssue

/-- What the parsers can find wrong. Where a token stood in the way, it is part of the cause. -/
inductive ParseIssue
  /-- Something else was needed at this token. -/
  | expected (what : String) (found : TokenKind)
  /-- A bracket is not closed before this token. -/
  | unclosed (opener closer : String) (opened : Position) (found : TokenKind)
  | expressionTooDeep (found : TokenKind)
  | trailingInput (found : TokenKind)
  | strayEnd
  /-- `elif` or `else` outside of an `if`. -/
  | strayBranch (word : String)
  /-- `elif` or `else` after the `else` of the same `if`. -/
  | branchAfterElse (word : String)
  | missingEnd (block : String)
  | blocksTooDeep
  | returnOutside
  /-- `break` or `continue` outside of a loop. -/
  | outsideLoop (word : String)
  | bareAssignment (name : String)
  | duplicateParameter (parameter function : String)
  | notACall
  | unknownCommand (surface verb : String)
  | missingArgument (command : String) (count index : Nat) (found : TokenKind)
  | unexpectedArgument (command : String) (found : TokenKind)
  | clauseNotTaken (command clause : String)
  | duplicateClause (command clause : String)
  | clauseValues (clause : String) (count : Nat) (found : TokenKind)
  | clauseRequired (command clause : String) (found : TokenKind)
  deriving Repr

namespace ParseIssue

/-- The wording of a syntactic failure. -/
def message : ParseIssue → String
  | expected what found => "expected " ++ what ++ ", found " ++ found.describe
  | unclosed opener closer opened found =>
    "expected `" ++ closer ++ "` to close `" ++ opener ++ "` at " ++ opened.describe ++ ", found "
      ++ found.describe
  | expressionTooDeep found =>
    "expression nested more than " ++ toString maxNesting ++ " levels, found " ++ found.describe
  | trailingInput found => "unexpected input after expression, found " ++ found.describe
  | strayEnd => "`end` without an open block"
  | strayBranch word => "`" ++ word ++ "` without an open `if`"
  | branchAfterElse word => "`" ++ word ++ "` after `else`; expected `end`"
  | missingEnd block => "`" ++ block ++ "` block is missing its `end`"
  | blocksTooDeep => "blocks nested more than " ++ toString maxNesting ++ " levels"
  | returnOutside => "`return` outside of a function"
  | outsideLoop word => "`" ++ word ++ "` outside of a loop"
  | bareAssignment name => "assignment needs `let`: write `let " ++ name ++ " = ...`"
  | duplicateParameter parameter function =>
    "duplicate parameter `" ++ parameter ++ "` in `" ++ function ++ "`"
  | notACall => "only function calls can be used as statements"
  | unknownCommand surface verb => "unknown " ++ surface ++ " command `" ++ verb ++ "`"
  | missingArgument command count index found =>
    "`" ++ command ++ "` expects " ++ toString count ++ " argument(s), missing argument "
      ++ toString index ++ ", found " ++ found.describe
  | unexpectedArgument command found =>
    "unexpected argument to `" ++ command ++ "`, found " ++ found.describe
  | clauseNotTaken command clause => "`" ++ command ++ "` does not take `" ++ clause ++ "`"
  | duplicateClause command clause => "duplicate `" ++ clause ++ "` in `" ++ command ++ "`"
  | clauseValues clause count found =>
    "`" ++ clause ++ "` expects " ++ toString count ++ " value(s), found " ++ found.describe
  | clauseRequired command clause found =>
    "`" ++ command ++ "` requires `" ++ clause ++ "`, found " ++ found.describe

end ParseIssue

/-- Operations on values of the wrong type. Types are named as the language names them. -/
inductive TypeIssue
  | addToText (left right : String)
  | operands (operator left right : String)
  | negate (type : String)
  | compare (left right : String)
  | indexType (container index : String)
  | notIndexable (type : String)
  | noMember (type member : String)
  | notCallable (type : String)
  | notAFunction (name type : String)
  | notIterable (type : String)
  /-- A built-in function wants something else at this position, counted from zero. -/
  | argument (function wanted : String) (index : Nat) (got : String)
  /-- A module function wants something else. -/
  | memberArgument (function wanted got : String)
  | foreignCall (function : String)
  deriving DecidableEq, Repr

namespace TypeIssue

/-- The wording of a type failure. -/
def message : TypeIssue → String
  | addToText left right =>
    "cannot add " ++ left ++ " and " ++ right ++ "; convert with str() first"
  | operands operator left right =>
    "unsupported operand types for " ++ operator ++ ": " ++ left ++ " and " ++ right
  | negate type => "cannot negate " ++ type
  | compare left right => "cannot compare " ++ left ++ " with " ++ right
  | indexType container index => container ++ " index must be int, not " ++ index
  | notIndexable type => type ++ " is not indexable"
  | noMember type member => type ++ " has no member `" ++ member ++ "`"
  | notCallable type => type ++ " is not callable"
  | notAFunction name type => "`" ++ name ++ "` is " ++ type ++ ", not a function"
  | notIterable type => "cannot iterate over " ++ type
  | argument function wanted index got =>
    "`" ++ function ++ "` expects " ++ wanted ++ " as argument " ++ toString (index + 1) ++ ", got " ++ got
  | memberArgument function wanted got => "`" ++ function ++ "` expects " ++ wanted ++ ", got " ++ got
  | foreignCall function => "`" ++ function ++ "` cannot be called from passthrough code"

end TypeIssue

/-- Operations on values of the right type that have no answer. -/
inductive ValueIssue
  | divisionByZero
  | moduloByZero
  | keyNotFound (key : String)
  | indexOutOfRange (index : Int) (length : Nat)
  | notAnInt (function number : String)
  | invalidNumber (function text : String)
  | sleepTooLong (seconds : String)
  /-- `min`, `max`, `first` or `last` of an empty list. -/
  | ofEmptyList (function : String)
  /-- `pop` or `choice` from an empty list. -/
  | fromEmptyList (function : String)
  | negativeRoot
  | repeatTooLarge
  | rangeTooLarge (count : Int)
  | zeroStep
  | emptyRange (low high : Int)
  | nonPositiveLog
  | invalidPattern (reason : String)
  deriving DecidableEq, Repr

namespace ValueIssue

/-- The wording of a value failure. -/
def message : ValueIssue → String
  | divisionByZero => "division by zero"
  | moduloByZero => "modulo by zero"
  | keyNotFound key => "key " ++ key ++ " not found"
  | indexOutOfRange index length =>
    "index " ++ toString index ++ " out of range for length " ++ toString length
  | notAnInt function number => "`" ++ function ++ "`: cannot convert " ++ number ++ " to int"
  | invalidNumber function text => "`" ++ function ++ "`: invalid number " ++ Text.quote text
  | sleepTooLong seconds => "`sleep`: " ++ seconds ++ " seconds is out of range"
  | ofEmptyList function => "`" ++ function ++ "` of an empty list"
  | fromEmptyList function => "`" ++ function ++ "` from an empty list"
  | negativeRoot => "`sqrt` of a negative number"
  | repeatTooLarge => "`repeat` result too large"
  | rangeTooLarge count => "`range` of " ++ toString count ++ " items is too large"
  | zeroStep => "`range` step must not be zero"
  | emptyRange low high => "`randint`: empty range " ++ toString low ++ ".." ++ toString high
  | nonPositiveLog => "`log` of a non-positive number"
  | invalidPattern reason => "`matches`: invalid pattern: " ++ reason

end ValueIssue

/-- What a command can find wrong, beside a window or widget that does not exist. -/
inductive FrontendIssue
  /-- The position, counted from zero, is not filled. -/
  | missingArgument (index : Nat)
  | notANumber (got : String)
  | missingCallback
  | noGameWindow
  | placeNotNumbers
  | frameCount (got : String)
  | unsupportedVerb (verb : String)
  deriving DecidableEq, Repr

namespace FrontendIssue

/-- The wording of what a command finds wrong. -/
def message : FrontendIssue → String
  | missingArgument index => "missing argument " ++ toString (index + 1)
  | notANumber got => "expects a number, got " ++ got
  | missingCallback => "missing `do`"
  | noGameWindow => "no game window is open"
  | placeNotNumbers => "`at` expects numbers"
  | frameCount got => "`frames` expects a count, got " ++ got
  | unsupportedVerb verb => "unsupported verb `" ++ verb ++ "`"

end FrontendIssue

/-- **Why something failed.** -/
inductive Cause
  | lex (issue : LexIssue)
  | parse (issue : ParseIssue)
  | name (name : String)
  | arity (function : String) (expected : Arity) (got : Nat)
  | type (issue : TypeIssue)
  | value (issue : ValueIssue)
  | package (path reason : String)
  | passthrough (language message : String)
  | frontend (command : String) (issue : FrontendIssue)
  /-- A frontend fails in words of its own. -/
  | reported (message : String)
  | recursion (limit : Nat)
  /-- The program itself broke off; no answer is defined for such an input. -/
  | broken
  deriving Repr

namespace Cause

/-- The word for the kind of failure. -/
def kind : Cause → String
  | lex _ => "LexError"
  | parse _ => "ParseError"
  | name _ => "NameError"
  | arity .. => "ArityError"
  | type _ => "TypeError"
  | value _ => "ValueError"
  | package .. => "ImportError"
  | passthrough .. => "PassthroughError"
  | frontend .. | reported _ => "FrontendError"
  | recursion _ => "RecursionError"
  | broken => "InternalError"

/-- The wording of a failure, without its location. -/
def message (c : Cause) : String :=
  match c with
  | lex issue => c.kind ++ ": " ++ issue.message
  | parse issue => c.kind ++ ": " ++ issue.message
  | name n => c.kind ++ ": `" ++ n ++ "` is not defined"
  | arity function expected got =>
    c.kind ++ ": `" ++ function ++ "` expects " ++ expected.describe ++ " argument(s), got " ++ toString got
  | type issue => c.kind ++ ": " ++ issue.message
  | value issue => c.kind ++ ": " ++ issue.message
  | package path reason => c.kind ++ ": cannot import `" ++ path ++ "`: " ++ reason
  | passthrough language message => c.kind ++ " (" ++ language ++ "): " ++ message
  | frontend command issue => c.kind ++ ": " ++ command ++ ": " ++ issue.message
  | reported message => c.kind ++ ": " ++ message
  | recursion limit => c.kind ++ ": call depth exceeded " ++ toString limit
  | broken => c.kind

end Cause

/-- **A failure**: its cause and where it happened. -/
structure Error where
  cause : Cause
  location : Location := .unknown
  deriving Repr

namespace Error

/-- A failure of the lexer at a position. -/
def lex (p : Position) (issue : LexIssue) : Error := ⟨.lex issue, .at p⟩

/-- A failure of a parser at a position. -/
def parse (p : Position) (issue : ParseIssue) : Error := ⟨.parse issue, .at p⟩

/-- Add the line of a statement to a failure that has no location yet. -/
def atLine (e : Error) (n : Nat) : Error :=
  match e.location with
  | .unknown => { e with location := .line n }
  | _ => e

/-- The line, when it is known. -/
def line? (e : Error) : Option Nat := e.location.line?

/-- The full text of a failure. -/
def message (e : Error) : String := e.location.describe ++ e.cause.message

end Error

end Helios
