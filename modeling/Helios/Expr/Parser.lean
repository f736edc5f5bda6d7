import Helios.Expr
import Helios.Token.Lexer

/-!
# Parsing expressions

A `Cursor` walks over tokens, and a `Parse` is a computation that moves it or fails. Binary operators
have five levels, all associating to the left; below them come the unary operators, then calls,
indexing and member access, then literals, names and bracketed forms.

Besides whole expressions there are *command arguments*, which stop before a binary operator, so that
`10 -5` reads as two of them, and in which a bracket belongs to the value before it only when it is
written directly against it.

Every function counts down a bound on the depth of its calls. Each level of the grammar is entered a
fixed number of times for each token, so the bound that `Cursor.fuel` computes is never reached.
-/

namespace Helios

/-- **A place among tokens**: the token before it, the tokens after it, and the end of input. -/
structure Cursor where
  prev : Option Token
  rest : List Token
  stop : Token
  deriving Repr, Inhabited

namespace Cursor

/-- Whether a token is the end of input. -/
def isEof (t : Token) : Bool :=
  match t.kind with
  | .eof => true
  | _ => false

/-- The cursor before some tokens. Without an end of input, one is placed where the last token is. -/
def start (tokens : List Token) : Cursor :=
  match tokens.getLast? with
  | none => ⟨none, [], ⟨.eof, "", ⟨0, 0⟩⟩⟩
  | some last =>
    if isEof last then ⟨none, tokens.dropLast, last⟩ else ⟨none, tokens, ⟨.eof, "", last.pos⟩⟩

/-- The current token. -/
def peek (c : Cursor) : Token := c.rest.headD c.stop

/-- The token after the current one. -/
def peekNext (c : Cursor) : Token := c.rest.tail.headD c.stop

/-- Go past the current token; the end of input is never passed. -/
def next (c : Cursor) : Cursor :=
  match c.rest with
  | [] => c
  | t :: rest => ⟨some t, rest, c.stop⟩

/-- Whether the current token starts exactly where the previous one ended. -/
def touches (c : Cursor) : Bool :=
  match c.prev with
  | none => false
  | some t => t.pos.line == c.peek.pos.line && t.pos.column + t.text.length == c.peek.pos.column

/-- More than the calls that any parse of the rest can nest. -/
def fuel (c : Cursor) : Nat := 16 * (c.rest.length + 2)

end Cursor

/-- **A parser**: it moves a cursor and gives a result, or fails somewhere on the way. -/
abbrev Parse (α : Type) := ExceptT Error (StateM Cursor) α

namespace Parse

/-- The current token. -/
def peek : Parse Token := fun c => (.ok c.peek, c)

/-- The kind of the current token. -/
def peekKind : Parse TokenKind := fun c => (.ok c.peek.kind, c)

/-- Take the current token. -/
def advance : Parse Token := fun c => (.ok c.peek, c.next)

/-- Fail at a position. -/
def failAt {α : Type} (p : Position) (issue : ParseIssue) : Parse α :=
  fun c => (.error (.parse p issue), c)

/-- Fail at the current token, which becomes part of the cause. -/
def fail {α : Type} (issue : TokenKind → ParseIssue) : Parse α :=
  fun c => (.error (.parse c.peek.pos (issue c.peek.kind)), c)

/-- The bound on nested calls is used up. -/
def exhausted {α : Type} : Parse α := fun c => (.error ⟨.broken, .unknown⟩, c)

/-- Whether the current token is the given symbol. -/
def atSymbol (s : Symbol) : Parse Bool := fun c => (.ok (c.peek.kind.isSymbol s), c)

/-- Take the given symbol if it is the current token. -/
def eatSymbol (s : Symbol) : Parse Bool := fun c =>
  if c.peek.kind.isSymbol s then (.ok true, c.next) else (.ok false, c)

/-- Take the given keyword if it is the current token. -/
def eatKeyword (k : Keyword) : Parse Bool := fun c =>
  if c.peek.kind.isKeyword k then (.ok true, c.next) else (.ok false, c)

/-- Take the given symbol or fail; `context` says where it belongs. -/
def expectSymbol (s : Symbol) (context : String) : Parse Token := do
  if ← atSymbol s then advance
  else fail (.expected ("`" ++ s.text ++ "` " ++ context))

/-- Take a name or fail. -/
def expectIdent (what : String) : Parse (String × Position) := do
  let t ← peek
  match t.kind with
  | .ident name =>
    let _ ← advance
    pure (name, t.pos)
  | _ => fail (.expected what)

/-- Take the symbol that closes a bracket or fail. -/
def expectClosing (close : Symbol) (opened : Token) : Parse Unit := do
  if ← eatSymbol close then pure ()
  else fail (.unclosed opened.text close.text opened.pos)

/-- Whether the current token touches the previous one. -/
def touches : Parse Bool := fun c => (.ok c.touches, c)

end Parse

namespace Expr

/-- The levels of binary operators, the loosest first. -/
inductive Level
  | or | and | comparison | additive | multiplicative
  deriving DecidableEq, Repr

namespace Level

/-- The next tighter level; after the last one come the unary operators. -/
def tighter : Level → Option Level
  | or => some .and
  | and => some .comparison
  | comparison => some .additive
  | additive => some .multiplicative
  | multiplicative => none

/-- The operator of this level that a token is. -/
def operator? : Level → TokenKind → Option BinOp
  | or, .keyword .or => some .or
  | and, .keyword .and => some .and
  | comparison, .symbol .eqEq => some .eq
  | comparison, .symbol .ne => some .ne
  | comparison, .symbol .lt => some .lt
  | comparison, .symbol .le => some .le
  | comparison, .symbol .gt => some .gt
  | comparison, .symbol .ge => some .ge
  | additive, .symbol .plus => some .add
  | additive, .symbol .minus => some .sub
  | multiplicative, .symbol .star => some .mul
  | multiplicative, .symbol .slash => some .div
  | multiplicative, .symbol .percent => some .rem
  | _, _ => none

end Level

/-- The unary operator that a token is. -/
def unaryOperator? : TokenKind → Option UnaryOp
  | .symbol .minus => some .neg
  | .keyword .not => some .not
  | _ => none

/-- The expression that a token is by itself. -/
def atom? : TokenKind → Option Expr
  | .int n => some (.literal (.int n))
  | .float x => some (.literal (.float x))
  | .str s => some (.literal (.str s))
  | .keyword .true_ => some (.literal (.bool true))
  | .keyword .false_ => some (.literal (.bool false))
  | .keyword .nil => some (.literal .nil)
  | .ident name => some (.var name)
  | _ => none

/-- Fail when `depth` levels are open already and no further one is allowed. -/
def checkDepth (depth : Nat) : Parse Unit :=
  if maxNesting ≤ depth then Parse.fail .expressionTooDeep else pure ()

mutual

/-- A whole expression inside `depth` open levels. -/
def expression : Nat → Nat → Parse Expr
  | 0, _ => Parse.exhausted
  | fuel + 1, depth => do
    checkDepth depth
    chain fuel (depth + 1) .or

/-- Operands of one level and the operators between them. -/
def chain : Nat → Nat → Level → Parse Expr
  | 0, _, _ => Parse.exhausted
  | fuel + 1, depth, level => do
    let left ← operand fuel depth level
    chainRest fuel depth level left

/-- An operand of a level: an expression of the next tighter level. -/
def operand : Nat → Nat → Level → Parse Expr
  | 0, _, _ => Parse.exhausted
  | fuel + 1, depth, level =>
    match level.tighter with
    | some tighter => chain fuel depth tighter
    | none => unaryOrPostfix fuel depth false

/-- Further operators of one level after `left`. -/
def chainRest : Nat → Nat → Level → Expr → Parse Expr
  | 0, _, _, _ => Parse.exhausted
  | fuel + 1, depth, level, left => do
    match level.operator? (← Parse.peekKind) with
    | some op =>
      let _ ← Parse.advance
      let right ← operand fuel depth level
      chainRest fuel depth level (.binary op left right)
    | none => pure left

/-- Unary operators, each one level deeper, before a postfix expression. -/
def unaryOrPostfix : Nat → Nat → Bool → Parse Expr
  | 0, _, _ => Parse.exhausted
  | fuel + 1, depth, command => do
    match unaryOperator? (← Parse.peekKind) with
    | some op =>
      let _ ← Parse.advance
      checkDepth depth
      let e ← unaryOrPostfix fuel (depth + 1) command
      pure (.unary op e)
    | none =>
      let e ← primary fuel depth
      postfixRest fuel depth command e

/-- Calls, indexing and member access after `e`. In a command argument an opening bracket that does
    not touch `e` starts the next argument. -/
def postfixRest : Nat → Nat → Bool → Expr → Parse Expr
  | 0, _, _, _ => Parse.exhausted
  | fuel + 1, depth, command, e => do
    let opened ← Parse.peek
    let apart := command && !(← Parse.touches)
    match opened.kind with
    | .symbol .leftParen =>
      if apart then pure e
      else
        let _ ← Parse.advance
        let args ← commaList fuel depth .rightParen opened
        postfixRest fuel depth command (.call e args)
    | .symbol .leftBracket =>
      if apart then pure e
      else
        let _ ← Parse.advance
        let i ← expression fuel depth
        Parse.expectClosing .rightBracket opened
        postfixRest fuel depth command (.index e i)
    | .symbol .dot =>
      let _ ← Parse.advance
      let (name, _) ← Parse.expectIdent "a member name after `.`"
      postfixRest fuel depth command (.member e name)
    | _ => pure e

/-- Literals, names and bracketed forms. -/
def primary : Nat → Nat → Parse Expr
  | 0, _ => Parse.exhausted
  | fuel + 1, depth => do
    let t ← Parse.peek
    match atom? t.kind with
    | some e =>
      let _ ← Parse.advance
      pure e
    | none =>
      match t.kind with
      | .symbol .leftParen =>
        let _ ← Parse.advance
        let e ← expression fuel depth
        Parse.expectClosing .rightParen t
        pure e
      | .symbol .leftBracket =>
        let _ ← Parse.advance
        let items ← commaList fuel depth .rightBracket t
        pure (.list items)
      | .symbol .leftBrace =>
        let _ ← Parse.advance
        let pairs ← pairList fuel depth t
        pure (.dict pairs)
      | _ => Parse.fail (.expected "an expression")

/-- Expressions separated by commas up to a closing bracket; a trailing comma is allowed. -/
def commaList : Nat → Nat → Symbol → Token → Parse (List Expr)
  | 0, _, _, _ => Parse.exhausted
  | fuel + 1, depth, close, opened => do
    if ← Parse.eatSymbol close then pure []
    else
      let e ← expression fuel depth
      if ← Parse.eatSymbol .comma then
        let rest ← commaList fuel depth close opened
        pure (e :: rest)
      else
        Parse.expectClosing close opened
        pure [e]

/-- Entries separated by commas up to the closing brace; a trailing comma is allowed. -/
def pairList : Nat → Nat → Token → Parse (List (Expr × Expr))
  | 0, _, _ => Parse.exhausted
  | fuel + 1, depth, opened => do
    if ← Parse.eatSymbol .rightBrace then pure []
    else
      let key ← expression fuel depth
      let _ ← Parse.expectSymbol .colon "between dictionary key and value"
      let value ← expression fuel depth
      if ← Parse.eatSymbol .comma then
        let rest ← pairList fuel depth opened
        pure ((key, value) :: rest)
      else
        Parse.expectClosing .rightBrace opened
        pure [(key, value)]

end

/-- **A whole expression.** -/
def parser : Parse Expr := fun c => expression c.fuel 0 c

/-- **A command argument**: an expression of unary level. -/
def commandArg : Parse Expr := fun c => unaryOrPostfix c.fuel 0 true c

/-- Arguments in parentheses, starting at the current `(`. -/
def parenArgs : Parse (List Expr) := do
  let opened ← Parse.expectSymbol .leftParen "to open the argument list"
  fun c => commaList c.fuel 0 .rightParen opened c

/-- Command arguments up to the end of the line, and the cursor there; a failure keeps the arguments
    before it. -/
def commandArgs : Nat → Cursor → List Expr × Cursor × Option Error
  | 0, c => ([], c, some ⟨.broken, .unknown⟩)
  | fuel + 1, c =>
    if c.peek.kind.isNewline || Cursor.isEof c.peek then ([], c, none)
    else match commandArg c with
      | (.error e, c) => ([], c, some e)
      | (.ok e, c) =>
        let (es, c, failure) := commandArgs fuel c
        (e :: es, c, failure)

/-- **Parse a text that is one expression**, line breaks after it aside. -/
def parse (source : String) : Except Error Expr := do
  let tokens ← Token.tokenize source
  let (result, c) := parser (Cursor.start tokens)
  let e ← result
  let rest := { c with rest := c.rest.dropWhile fun t => t.kind.isNewline }
  if Cursor.isEof rest.peek then pure e
  else throw (.parse rest.peek.pos (.trailingInput rest.peek.kind))

end Expr

end Helios
