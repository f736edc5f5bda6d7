import Helios.Guest.Small.Lexer

/-!
# Reading blocks of the small guest language

Every function takes fuel and hands less of it on; a block needs no more than a few units for each of
its tokens.
-/

namespace Helios.Guest.Small

/-- A piece of the parser over the tokens that are left. A failure is a text with its line. -/
abbrev Parse := StateT (List Token) (Except String)

namespace Parse

/-- The next token. -/
def peek : Parse Token := return (← get).headD ⟨.stop, "<eof>", 1⟩

/-- Step over the next token. -/
def next : Parse Token := do
  let t ← peek
  modify fun ts => match ts with
    | [t] => [t]
    | ts => ts.tail
  pure t

/-- Fail at the next token. -/
def fail {α : Type} (what : String) : Parse α := do
  let t ← peek
  match t.kind with
  | .stop => throw (atLine t.line (what ++ " near <eof>"))
  | _ => throw (Token.issue t.line what t.text)

/-- Whether the next token is a sign. -/
def atSign (s : String) : Parse Bool := do
  match (← peek).kind with
  | .sign t => pure (s == t)
  | _ => pure false

/-- Whether the next token is a keyword. -/
def atWord (s : String) : Parse Bool := do
  match (← peek).kind with
  | .keyword t => pure (s == t)
  | _ => pure false

/-- Step over a sign, if it comes next. -/
def eatSign (s : String) : Parse Bool := do
  if ← atSign s then
    let _ ← next
    pure true
  else pure false

/-- Step over a keyword, if it comes next. -/
def eatWord (s : String) : Parse Bool := do
  if ← atWord s then
    let _ ← next
    pure true
  else pure false

/-- A sign that must come next. -/
def expectSign (s : String) : Parse Unit := do
  if !(← eatSign s) then fail ("'" ++ s ++ "' expected")

/-- A keyword that must come next. -/
def expectWord (s : String) : Parse Unit := do
  if !(← eatWord s) then fail ("'" ++ s ++ "' expected")

/-- The `end` of what was opened on a line. -/
def expectEnd (word : String) (line : Nat) : Parse Unit := do
  if !(← eatWord "end") then
    if (← peek).line = line then fail "'end' expected"
    else fail ("'end' expected (to close '" ++ word ++ "' at line " ++ toString line ++ ")")

/-- A name. -/
def name : Parse String := do
  match (← peek).kind with
  | .name s =>
    let _ ← next
    pure s
  | _ => fail "<name> expected"

/-- Binary operators with how tightly they bind to the left and to the right. -/
inductive Operator
  | op (o : BinOp)
  | and_ | or_

/-- The binary operator of a token. -/
def operator? : TokenKind → Option (Operator × Nat × Nat)
  | .keyword "or" => some (.or_, 1, 1)
  | .keyword "and" => some (.and_, 2, 2)
  | .sign "<" => some (.op .lt, 3, 3)
  | .sign ">" => some (.op .gt, 3, 3)
  | .sign "<=" => some (.op .le, 3, 3)
  | .sign ">=" => some (.op .ge, 3, 3)
  | .sign "~=" => some (.op .ne, 3, 3)
  | .sign "==" => some (.op .eq, 3, 3)
  | .sign ".." => some (.op .concat, 9, 8)
  | .sign "+" => some (.op .add, 10, 10)
  | .sign "-" => some (.op .sub, 10, 10)
  | .sign "*" => some (.op .mul, 11, 11)
  | .sign "/" => some (.op .div, 11, 11)
  | .sign "//" => some (.op .floorDiv, 11, 11)
  | .sign "%" => some (.op .mod, 11, 11)
  | _ => none

/-- The unary operator of a token. -/
def unary? : TokenKind → Option UnaryOp
  | .keyword "not" => some .not
  | .sign "-" => some .neg
  | .sign "#" => some .len
  | _ => none

/-- How tightly unary operators bind. -/
def unaryLevel : Nat := 12

/-- Whether a token ends a block. -/
def endsBlock : TokenKind → Bool
  | .stop => true
  | .keyword s => s == "end" || s == "else" || s == "elseif" || s == "until"
  | _ => false

mutual

/-- An expression whose operators bind tighter than a level. -/
def expression : Nat → Nat → Parse Expr
  | 0, _ => fail "chunk has too many syntax levels"
  | n + 1, level => do
    let t ← peek
    let first ← match unary? t.kind with
      | some op => do
        let _ ← next
        let e ← expression n unaryLevel
        pure (Expr.unary op e t.line)
      | none => simple n
    operators n level first

/-- The operators after a left operand. -/
def operators : Nat → Nat → Expr → Parse Expr
  | 0, _, _ => fail "chunk has too many syntax levels"
  | n + 1, level, left => do
    let t ← peek
    match operator? t.kind with
    | some (op, l, r) =>
      if level < l then
        let _ ← next
        let right ← expression n r
        operators n level (match op with
          | .op o => .binary o left right t.line
          | .and_ => .and_ left right
          | .or_ => .or_ left right)
      else pure left
    | none => pure left

/-- A constant, a table, a function, or what names and calls give. -/
def simple : Nat → Parse Expr
  | 0 => fail "chunk has too many syntax levels"
  | n + 1 => do
    match (← peek).kind with
    | .const c =>
      let _ ← next
      pure (.const c)
    | .keyword "nil" =>
      let _ ← next
      pure (.const .nil)
    | .keyword "true" =>
      let _ ← next
      pure (.const (.bool true))
    | .keyword "false" =>
      let _ ← next
      pure (.const (.bool false))
    | .keyword "function" =>
      let t ← next
      let (params, body) ← functionBody n t.line
      pure (.function params body)
    | .sign "\x7b" => table n
    | _ => suffixed n

/-- A name or an expression in parentheses. -/
def primary : Nat → Parse Expr
  | 0 => fail "chunk has too many syntax levels"
  | n + 1 => do
    match (← peek).kind with
    | .name s =>
      let _ ← next
      pure (.name s)
    | .sign "(" =>
      let _ ← next
      let e ← expression n 0
      expectSign ")"
      pure (.paren e)
    | _ => fail "unexpected symbol"

/-- A name or an expression in parentheses, with indices and calls after it. -/
def suffixed : Nat → Parse Expr
  | 0 => fail "chunk has too many syntax levels"
  | n + 1 => do
    let e ← primary n
    suffixes n e

/-- The indices and calls after an expression. -/
def suffixes : Nat → Expr → Parse Expr
  | 0, _ => fail "chunk has too many syntax levels"
  | n + 1, e => do
    let t ← peek
    match t.kind with
    | .sign "." =>
      let _ ← next
      let key ← name
      suffixes n (.index e (.const (.str key.toUTF8.toList)) t.line)
    | .sign "[" =>
      let _ ← next
      let key ← expression n 0
      expectSign "]"
      suffixes n (.index e key t.line)
    | .sign "(" =>
      let _ ← next
      let args ← if ← atSign ")" then pure [] else expressions n
      expectSign ")"
      suffixes n (.call e args t.line)
    | .const (.str s) =>
      let _ ← next
      suffixes n (.call e [.const (.str s)] t.line)
    | .sign "\x7b" =>
      let arg ← table n
      suffixes n (.call e [arg] t.line)
    | _ => pure e

/-- Expressions with commas between them. -/
def expressions : Nat → Parse (List Expr)
  | 0 => fail "chunk has too many syntax levels"
  | n + 1 => do
    let e ← expression n 0
    if ← eatSign "," then
      let es ← expressions n
      pure (e :: es)
    else pure [e]

/-- A table. -/
def table : Nat → Parse Expr
  | 0 => fail "chunk has too many syntax levels"
  | n + 1 => do
    expectSign "\x7b"
    let fs ← fields n
    expectSign "\x7d"
    pure (.table fs)

/-- The fields of a table. -/
def fields : Nat → Parse (List Field)
  | 0 => fail "chunk has too many syntax levels"
  | n + 1 => do
    if ← atSign "\x7d" then pure []
    else
      let f ← field n
      let comma ← eatSign ","
      let more ← if comma then pure true else eatSign ";"
      if more then
        let fs ← fields n
        pure (f :: fs)
      else pure [f]

/-- A field of a table. -/
def field : Nat → Parse Field
  | 0 => fail "chunk has too many syntax levels"
  | n + 1 => do
    let t ← peek
    let after := ((← get).drop 1).head?.map Token.kind
    match t.kind, after with
    | .name s, some (.sign "=") =>
      let _ ← next
      let _ ← next
      let e ← expression n 0
      pure (.keyed (.const (.str s.toUTF8.toList)) e t.line)
    | .sign "[", _ =>
      let _ ← next
      let key ← expression n 0
      expectSign "]"
      expectSign "="
      let e ← expression n 0
      pure (.keyed key e t.line)
    | _, _ =>
      let e ← expression n 0
      pure (.item e)

/-- The parameters and the body of a function. -/
def functionBody : Nat → Nat → Parse (List String × Block)
  | 0, _ => fail "chunk has too many syntax levels"
  | n + 1, line => do
    expectSign "("
    let params ← if ← atSign ")" then pure [] else parameters n
    expectSign ")"
    let body ← block n
    expectEnd "function" line
    pure (params, body)

/-- Names with commas between them. -/
def parameters : Nat → Parse (List String)
  | 0 => fail "chunk has too many syntax levels"
  | n + 1 => do
    let p ← name
    if ← eatSign "," then
      let ps ← parameters n
      pure (p :: ps)
    else pure [p]

/-- Statements up to the end of a block. -/
def block : Nat → Parse Block
  | 0 => fail "chunk has too many syntax levels"
  | n + 1 => do
    let t ← peek
    if endsBlock t.kind then pure []
    else if ← eatSign ";" then block n
    else if ← eatWord "return" then
      let values ← if endsBlock (← peek).kind || (← atSign ";") then pure [] else expressions n
      let _ ← eatSign ";"
      pure [.return_ values]
    else
      let s ← statement n
      let rest ← block n
      pure (s :: rest)

/-- A statement. -/
def statement : Nat → Parse Stmt
  | 0 => fail "chunk has too many syntax levels"
  | n + 1 => do
    let t ← peek
    match t.kind with
    | .keyword "if" =>
      let _ ← next
      branches n t.line
    | .keyword "do" =>
      let _ ← next
      let body ← block n
      expectEnd "do" t.line
      pure (.block body)
    | .keyword "function" =>
      let _ ← next
      let first ← name
      let target ← functionName n (.name first)
      let (params, body) ← functionBody n t.line
      pure (.assign [target] [.function params body] t.line)
    | .keyword "local" =>
      let _ ← next
      if ← eatWord "function" then
        let f ← name
        let (params, body) ← functionBody n t.line
        pure (.declareFunction f params body)
      else
        let names ← parameters n
        let values ← if ← eatSign "=" then expressions n else pure []
        pure (.declare names values)
    | _ =>
      let e ← suffixed n
      let assigns ← if ← atSign "=" then pure true else atSign ","
      if assigns then assignment n [e] t.line
      else
        match e with
        | .call .. => pure (.call e)
        | _ => fail "syntax error"

/-- The dotted name of a function that is defined. -/
def functionName : Nat → Expr → Parse Expr
  | 0, _ => fail "chunk has too many syntax levels"
  | n + 1, e => do
    let t ← peek
    if ← eatSign "." then
      let key ← name
      functionName n (.index e (.const (.str key.toUTF8.toList)) t.line)
    else pure e

/-- The rest of an assignment, after its first targets. -/
def assignment : Nat → List Expr → Nat → Parse Stmt
  | 0, _, _ => fail "chunk has too many syntax levels"
  | n + 1, targets, line => do
    match targets.getLast? with
    | some (.name _) | some (.index ..) =>
      if ← eatSign "," then
        let e ← suffixed n
        assignment n (targets ++ [e]) line
      else
        expectSign "="
        let values ← expressions n
        pure (.assign targets values line)
    | _ => fail "syntax error"

/-- The rest of an `if`, from its condition on. -/
def branches : Nat → Nat → Parse Stmt
  | 0, _ => fail "chunk has too many syntax levels"
  | n + 1, line => do
    let cond ← expression n 0
    expectWord "then"
    let yes ← block n
    if ← eatWord "elseif" then
      let rest ← branches n line
      pure (.branch cond yes [rest])
    else if ← eatWord "else" then
      let no ← block n
      expectEnd "if" line
      pure (.branch cond yes no)
    else
      expectEnd "if" line
      pure (.branch cond yes [])

end

end Parse

/-- **Read a block.** -/
def parse (code : String) : Except String Block := do
  let cs := code.toList
  let tokens ← Token.tokenize (cs.length + 1) 1 cs
  let (body, left) ← (Parse.block (16 * tokens.length + 16)).run tokens
  match left with
  | [⟨.stop, _, _⟩] | [] => pure body
  | t :: _ => throw (Token.issue t.line "'<eof>' expected" t.text)

end Helios.Guest.Small
