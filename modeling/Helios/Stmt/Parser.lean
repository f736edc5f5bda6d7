import Helios.Stmt
import Helios.Expr.Parser

/-!
# Parsing programs

A program is a sequence of statements separated by line breaks or `;`. Blocks open with a keyword and
`:` and close with `end`; `elif` and `else` go on with an open `if`. What is allowed inside a block
depends on the blocks around it, which a `Context` sums up, so `return`, `break` and `continue` are
accepted only where they have something to leave.
-/

namespace Helios

/-- What opens a block. -/
inductive BlockKind
  | if_ | while_ | for_ | def_
  deriving DecidableEq, Repr

namespace BlockKind

/-- The keyword that opens a block. -/
def keyword : BlockKind → Keyword
  | if_ => .if_
  | while_ => .while_
  | for_ => .for_
  | def_ => .def_

end BlockKind

/-- An open block: what opened it and where. -/
structure OpenBlock where
  kind : BlockKind
  pos : Position
  deriving Repr

/-- The blocks around a statement: how many there are, and whether a function or, within it, a loop is
    among them. -/
structure Context where
  blocks : Nat
  inFunction : Bool
  inLoop : Bool
  deriving DecidableEq, Repr

namespace Context

/-- Outside of all blocks. -/
def top : Context := ⟨0, false, false⟩

/-- Inside one more block. A function starts without a loop around it. -/
def enter (ctx : Context) : BlockKind → Context
  | .if_ => { ctx with blocks := ctx.blocks + 1 }
  | .while_ | .for_ => { ctx with blocks := ctx.blocks + 1, inLoop := true }
  | .def_ => ⟨ctx.blocks + 1, true, false⟩

end Context

namespace Parse

/-- Whether a token ends a simple statement: a separator, the end of input, or a word that closes or
    goes on with the block around it. -/
def endsStatement : TokenKind → Bool
  | .newline | .eof | .end_ | .keyword .elif | .keyword .else_ => true
  | _ => false

/-- Whether the current token ends a simple statement. -/
def atSeparator : Parse Bool := fun c => (.ok (endsStatement c.peek.kind), c)

/-- Items up to a place where `stop` holds; each of them takes at least one token. -/
def manyUntil {α : Type} (stop : Parse Bool) (item : Parse α) : Nat → Parse (List α)
  | 0 => exhausted
  | fuel + 1 => do
    if ← stop then pure []
    else
      let a ← item
      let rest ← manyUntil stop item fuel
      pure (a :: rest)

/-- Items up to a place where `stop` holds. -/
def many {α : Type} (stop : Parse Bool) (item : Parse α) : Parse (List α) :=
  fun c => manyUntil stop item c.fuel c

/-- Go past line breaks. -/
def skipNewlines : Parse Unit := fun c =>
  match c.rest.takeWhile (fun t => t.kind.isNewline) with
  | [] => (.ok (), c)
  | t :: ts =>
    (.ok (), { c with prev := some (ts.getLastD t), rest := c.rest.dropWhile fun t => t.kind.isNewline })

/-- The end of a simple statement; a separator is taken. -/
def expectSeparator : Parse Unit := do
  if ← atSeparator then
    if (← peekKind).isNewline then let _ ← advance
  else fail (.expected "end of statement")

end Parse

namespace Stmt

/-- An expression and the comma that may follow it. -/
def withComma (item : Parse Expr) : Parse Expr := do
  let e ← item
  let _ ← Parse.eatSymbol .comma
  pure e

/-- The arguments of `print`: in parentheses when they touch the word, else up to the separator. -/
def printArgs : Parse (List Expr) := do
  if (← Parse.atSymbol .leftParen) && (← Parse.touches) then Expr.parenArgs
  else Parse.many Parse.atSeparator (withComma Expr.parser)

/-- Command arguments up to the separator. -/
def commandArgs : Parse (List Expr) := Parse.many Parse.atSeparator (withComma Expr.commandArg)

/-- The statement that a call expression is. -/
def ofCall? : Expr → Option Stmt
  | .call callee args => some (.call callee args)
  | _ => none

/-- The rest of `call f a b` or `call f(a, b)`. -/
def callCommand : Parse Stmt := do
  let callee ← if ← Parse.eatKeyword .print then pure (.var "print") else Expr.commandArg
  match ofCall? callee, ← Parse.atSeparator with
  | some s, true => pure s
  | _, _ =>
    let args ← commandArgs
    pure (.call callee args)

/-- Whether an expression names a function: a variable or a member. -/
def isCallee : Expr → Bool
  | .var _ | .member .. => true
  | _ => false

/-- Whether a token can start a command argument of a call written without parentheses. -/
def startsArg : TokenKind → Bool
  | .ident _ | .int _ | .float _ | .str _ => true
  | .keyword .true_ | .keyword .false_ | .keyword .nil | .keyword .not => true
  | .symbol .leftParen | .symbol .leftBracket | .symbol .leftBrace | .symbol .minus => true
  | _ => false

/-- A statement that starts with a name: `f(x)`, `m.f(x)`, `f`, or the command form `f x y`. -/
def callStatement (pos : Position) : Parse Stmt := do
  let e ← Expr.commandArg
  if ← Parse.atSeparator then
    match ofCall? e with
    | some s => pure s
    | none => if isCallee e then pure (.call e []) else Parse.failAt pos .notACall
  else if isCallee e && startsArg (← Parse.peekKind) then
    let args ← commandArgs
    pure (.call e args)
  else Parse.failAt pos .notACall

/-! ## Commands -/

/-- A literal name: a word, a string, or a whole number as it is written. -/
def literalName : Parse String := do
  let t ← Parse.peek
  match t.kind with
  | .ident s | .str s =>
    let _ ← Parse.advance
    pure s
  | .int _ =>
    let _ ← Parse.advance
    pure t.text
  | _ => Parse.fail (.expected "a name")

/-- The clause that the current token introduces. -/
def clauseWord? : TokenKind → Option ClauseKind
  | .ident w => ClauseKind.ofText? w
  | _ => none

/-- The positions of a command; `index` counts those filled before. -/
def positionals (v : Verb) (index : Nat) : List Slot → Parse (List Positional)
  | [] => pure []
  | slot :: slots => do
    let clauseNext := (clauseWord? (← Parse.peekKind)).any v.takes
    if (← Parse.atSeparator) || clauseNext then
      Parse.fail (.missingArgument v.title v.slots.length (index + 1))
    else
      let p ← match slot with
        | .name => Positional.name <$> literalName
        | .expr => Positional.expr <$> Expr.commandArg
      let rest ← positionals v (index + 1) slots
      pure (p :: rest)

/-- `n` values of a clause. -/
def clauseValues (kind : ClauseKind) : Nat → Parse (List Expr)
  | 0 => pure []
  | n + 1 => do
    if ← Parse.atSeparator then Parse.fail (.clauseValues kind.text kind.valueCount)
    else
      let e ← Expr.commandArg
      let rest ← clauseValues kind n
      pure (e :: rest)

/-- What follows the word of a clause. -/
def clauseBody : ClauseKind → Parse Clause
  | .into_ => do
    let (name, _) ← Parse.expectIdent "a variable name after `into`"
    pure (.into name)
  | .do_ => do
    let (function, _) ← Parse.expectIdent "a function name after `do`"
    let stop : Parse Bool := fun c =>
      (.ok (Parse.endsStatement c.peek.kind || (clauseWord? c.peek.kind).isSome), c)
    let args ← Parse.many stop Expr.commandArg
    pure (.run function args)
  | kind => do
    let es ← clauseValues kind kind.valueCount
    pure (.values kind es)

/-- One clause of a command that has `before` already. -/
def clause (v : Verb) (before : List ClauseKind) : Parse Clause := do
  let t ← Parse.peek
  match clauseWord? t.kind with
  | none => Parse.fail (.unexpectedArgument v.title)
  | some kind =>
    if !v.takes kind then Parse.failAt t.pos (.clauseNotTaken v.title kind.text)
    else if before.contains kind then Parse.failAt t.pos (.duplicateClause v.title kind.text)
    else
      let _ ← Parse.advance
      clauseBody kind

/-- The clauses of a command up to the separator. -/
def clauses (v : Verb) : Nat → List ClauseKind → Parse (List Clause)
  | 0, _ => Parse.exhausted
  | fuel + 1, before => do
    if ← Parse.atSeparator then pure []
    else
      let c ← clause v before
      let rest ← clauses v fuel (c.kind :: before)
      pure (c :: rest)

/-- A command after the keyword of its surface. -/
def command_ (surface : Surface) : Parse CommandStmt := do
  let t ← Parse.peek
  match t.kind with
  | .ident name =>
    match Verb.find? surface name with
    | none => Parse.failAt t.pos (.unknownCommand surface.text name)
    | some v =>
      let _ ← Parse.advance
      let ps ← positionals v 0 v.slots
      let cs ← fun c => clauses v c.fuel [] c
      match v.required.find? fun k => !(cs.any fun c => c.kind == k) with
      | some missing => Parse.fail (.clauseRequired v.title missing.text)
      | none => pure ⟨surface, v.name, ps, cs⟩
  | _ => Parse.fail (.expected ("a `" ++ surface.text ++ "` command"))

/-! ## Blocks -/

/-- The parameters of a function after `(`, those before them given. -/
def parameters (function : String) : Nat → List String → Parse (List String)
  | 0, _ => Parse.exhausted
  | fuel + 1, before => do
    if ← Parse.eatSymbol .rightParen then pure before
    else
      let (param, pos) ← Parse.expectIdent "a parameter name"
      if before.contains param then Parse.failAt pos (.duplicateParameter param function)
      else if ← Parse.eatSymbol .comma then parameters function fuel (before ++ [param])
      else
        let _ ← Parse.expectSymbol .rightParen "after the parameter list"
        pure (before ++ [param])

/-- A function's name and parameters, up to the `:`. -/
def signature : Parse (String × List String) := do
  let (name, _) ← Parse.expectIdent "a function name after `solar_def`"
  let params ← if ← Parse.eatSymbol .leftParen then fun c => parameters name c.fuel [] c else pure []
  let _ ← Parse.expectSymbol .colon "after the function signature"
  pure (name, params)

/-- The rest of a dotted path. -/
def pathRest : Nat → String → Parse String
  | 0, _ => Parse.exhausted
  | fuel + 1, path => do
    if ← Parse.eatSymbol .dot then
      let (part, _) ← Parse.expectIdent "a name after `.`"
      pathRest fuel (path ++ "." ++ part)
    else pure path

/-- Refuse to open one more block than allowed. -/
def checkBlocks (ctx : Context) (pos : Position) : Parse Unit :=
  if maxNesting ≤ ctx.blocks then Parse.failAt pos .blocksTooDeep else pure ()

/-- A terminator must be `end`. -/
def requireEnd (t : Token) (issue : String → ParseIssue) : Parse Unit :=
  match t.kind with
  | .end_ => pure ()
  | _ => Parse.failAt t.pos (issue t.text)

mutual

/-- One statement. -/
def statement : Nat → Context → Parse (Located Stmt)
  | 0, _ => Parse.exhausted
  | fuel + 1, ctx => do
    let t ← Parse.peek
    let s ← statementBody fuel ctx t
    pure ⟨t.pos.line, s⟩

/-- The statement that starts with the current token `t`. -/
def statementBody : Nat → Context → Token → Parse Stmt
  | 0, _, _ => Parse.exhausted
  | fuel + 1, ctx, t => do
    match t.kind with
    | .keyword .let_ =>
      let _ ← Parse.advance
      let (name, _) ← Parse.expectIdent "a variable name after `let`"
      let _ ← Parse.expectSymbol .assign "after the variable name"
      let e ← Expr.parser
      pure (.assign name e)
    | .keyword .print =>
      let _ ← Parse.advance
      let args ← printArgs
      pure (.print args)
    | .keyword .if_ =>
      let _ ← Parse.advance
      checkBlocks ctx t.pos
      ifChain fuel (ctx.enter .if_) ⟨.if_, t.pos⟩
    | .keyword .while_ =>
      let _ ← Parse.advance
      let cond ← Expr.parser
      let _ ← Parse.expectSymbol .colon "after the `while` condition"
      let body ← plainBlock fuel ctx ⟨.while_, t.pos⟩
      pure (.while_ cond body)
    | .keyword .for_ =>
      let _ ← Parse.advance
      let (var, _) ← Parse.expectIdent "a loop variable after `for`"
      if ← Parse.eatKeyword .in_ then
        let items ← Expr.parser
        let _ ← Parse.expectSymbol .colon "after the `for` iterable"
        let body ← plainBlock fuel ctx ⟨.for_, t.pos⟩
        pure (.for_ var items body)
      else Parse.fail (.expected "`in` after the loop variable")
    | .keyword .def_ =>
      let _ ← Parse.advance
      let (name, params) ← signature
      let body ← plainBlock fuel ctx ⟨.def_, t.pos⟩
      pure (.define name params body)
    | .keyword .return_ =>
      if ctx.inFunction then
        let _ ← Parse.advance
        if ← Parse.atSeparator then pure (.return_ none)
        else
          let e ← Expr.parser
          pure (.return_ (some e))
      else Parse.failAt t.pos .returnOutside
    | .keyword .break_ =>
      if ctx.inLoop then
        let _ ← Parse.advance
        pure .break_
      else Parse.failAt t.pos (.outsideLoop "break")
    | .keyword .continue_ =>
      if ctx.inLoop then
        let _ ← Parse.advance
        pure .continue_
      else Parse.failAt t.pos (.outsideLoop "continue")
    | .keyword .contain =>
      let _ ← Parse.advance
      let (first, _) ← Parse.expectIdent "a package name after `contain`"
      let path ← fun c => pathRest c.fuel first c
      pure (.contain path)
    | .passthrough language code =>
      let _ ← Parse.advance
      pure (.passthrough language code)
    | .keyword .call =>
      let _ ← Parse.advance
      callCommand
    | .keyword .ui =>
      let _ ← Parse.advance
      Stmt.command <$> command_ .ui
    | .keyword .game =>
      let _ ← Parse.advance
      Stmt.command <$> command_ .game
    | .ident name =>
      let assigns : Parse Bool := fun c => (.ok (c.peekNext.kind.isSymbol .assign), c)
      if ← assigns then Parse.failAt t.pos (.bareAssignment name) else callStatement t.pos
    | _ => Parse.fail (.expected "a statement")

/-- Statements up to the word that closes or goes on with the open block; the word is taken. -/
def blockBody : Nat → Context → OpenBlock → Parse (Block × Token)
  | 0, _, _ => Parse.exhausted
  | fuel + 1, ctx, opened => do
    Parse.skipNewlines
    match ← Parse.peekKind with
    | .end_ | .keyword .elif | .keyword .else_ =>
      let t ← Parse.advance
      pure ([], t)
    | .eof => Parse.failAt opened.pos (.missingEnd opened.kind.keyword.text)
    | _ =>
      let s ← statement fuel ctx
      Parse.expectSeparator
      let (rest, t) ← blockBody fuel ctx opened
      pure (s :: rest, t)

/-- The body of a loop or a function: a block that only `end` may close. -/
def plainBlock : Nat → Context → OpenBlock → Parse Block
  | 0, _, _ => Parse.exhausted
  | fuel + 1, ctx, opened => do
    checkBlocks ctx opened.pos
    let (body, t) ← blockBody fuel (ctx.enter opened.kind) opened
    requireEnd t .strayBranch
    pure body

/-- An `if` after its keyword, or an `elif` after its word. -/
def ifChain : Nat → Context → OpenBlock → Parse Stmt
  | 0, _, _ => Parse.exhausted
  | fuel + 1, ctx, opened => do
    let cond ← Expr.parser
    let _ ← Parse.expectSymbol .colon "after the `if` condition"
    let (yes, t) ← blockBody fuel ctx opened
    match t.kind with
    | .keyword .elif =>
      let s ← ifChain fuel ctx opened
      pure (.branch cond yes [⟨t.pos.line, s⟩])
    | .keyword .else_ =>
      let _ ← Parse.expectSymbol .colon "after `else`"
      let (no, last) ← blockBody fuel ctx opened
      requireEnd last .branchAfterElse
      pure (.branch cond yes no)
    | _ => pure (.branch cond yes [])

end

/-- Statements up to the end of input. -/
def topLevel : Nat → Parse Block
  | 0 => Parse.exhausted
  | fuel + 1 => do
    Parse.skipNewlines
    let t ← Parse.peek
    match t.kind with
    | .eof => pure []
    | .end_ => Parse.failAt t.pos .strayEnd
    | .keyword .elif => Parse.failAt t.pos (.strayBranch "elif")
    | .keyword .else_ => Parse.failAt t.pos (.strayBranch "else")
    | _ =>
      let s ← fun c => statement c.fuel .top c
      Parse.expectSeparator
      let rest ← topLevel fuel
      pure (s :: rest)

/-- **Parse a program.** -/
def parseProgram (source : String) : Except Error Block := do
  let tokens ← Token.tokenize source
  let c := Cursor.start tokens
  (topLevel c.fuel c).1

end Stmt

end Helios
