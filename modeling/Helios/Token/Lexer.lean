import Helios.Error
import Helios.Text.Lines
import Helios.Decimal.Read

/-!
# Lexer

A source text is read from left to right by a `Scanner`, one `Step` at a time: a step skips blanks or
a comment, yields a token, finds the end of the text, or fails. Line breaks separate statements, so
they are tokens, except inside brackets, after another separator and before the first token; `;` is a
separator written out. A line that holds only `python:` or `lua:` opens a fenced block, which is taken
over as it stands up to its closing line.
-/

namespace Helios

/-- The fences around blocks of other languages. -/
structure Fence where
  opener : String
  closer : String
  language : String
  deriving DecidableEq, Repr

namespace Fence

/-- Every fence of the language. -/
def all : List Fence := [⟨"python:", "end_python", "python"⟩, ⟨"lua:", "end_lua", "lua"⟩]

/-- The fence that a line opens: the line holds the opener and blanks only. -/
def opening? (line : List Char) : Option Fence :=
  all.find? fun f => f.opener.toList == Text.trim line

/-- Whether a line closes the fence. -/
def closes (f : Fence) (line : List Char) : Bool := Text.trim line == f.closer.toList

end Fence

/-- **The state of the lexer**: the text that is left and where it starts. -/
structure Scanner where
  rest : List Char
  pos : Position
  /-- The number of open brackets. -/
  depth : Nat
  /-- Nothing of the current line was read yet. -/
  lineStart : Bool
  /-- The last token was a separator, or there was none yet. -/
  afterSeparator : Bool
  deriving Repr

/-- What one step of the lexer does. -/
inductive Step
  | skip (next : Scanner)
  | token (t : Token) (next : Scanner)
  | finish (t : Token)
  | fail (e : Error)
  deriving Repr

namespace Scanner

/-- The lexer before a text. -/
def start (cs : List Char) : Scanner := ⟨cs, .start, 0, true, true⟩

/-- A letter or underscore. -/
def isWordStart (c : Char) : Bool :=
  ('a' ≤ c && c ≤ 'z') || ('A' ≤ c && c ≤ 'Z') || c == '_'

/-- A letter, digit or underscore. -/
def isWordChar (c : Char) : Bool := isWordStart c || Decimal.isDigit c

/-- The kind of token a word is. -/
def wordKind (word : String) : TokenKind :=
  if word = "end" then .end_
  else match Keyword.ofText? word with
    | some k => .keyword k
    | none => .ident word

/-! ## Literals -/

/-- The text of a number: its characters, whether it has a point, or that it is malformed. -/
inductive NumberText
  | int (cs : List Char)
  | float (cs : List Char)
  | malformed (cs : List Char)
  deriving DecidableEq, Repr

/-- A number must not run into a word. -/
def NumberText.close (wrap : List Char → NumberText) (cs rest : List Char) : NumberText :=
  match rest.takeWhile isWordChar with
  | [] => wrap cs
  | tail => .malformed (cs ++ tail)

/-- The number at the front of a text that starts with a digit. A point belongs to it when a digit
    follows, or when no word does; a second point with a digit makes it malformed. -/
def numberText (cs : List Char) : NumberText :=
  let whole := cs.takeWhile Decimal.isDigit
  match cs.dropWhile Decimal.isDigit with
  | '.' :: tail =>
    match tail with
    | [] => .float (whole ++ ['.'])
    | d :: _ =>
      if Decimal.isDigit d then
        let fraction := tail.takeWhile Decimal.isDigit
        match tail.dropWhile Decimal.isDigit with
        | '.' :: e :: more =>
          if Decimal.isDigit e then
            .malformed (whole ++ '.' :: fraction ++ '.' ::
              (e :: more).takeWhile fun c => isWordChar c || c == '.')
          else .close .float (whole ++ '.' :: fraction) ('.' :: e :: more)
        | rest => .close .float (whole ++ '.' :: fraction) rest
      else if isWordChar d then .close .int whole ('.' :: tail)
      else .float (whole ++ ['.'])
  | rest => .close .int whole rest

/-- The characters of a number. -/
def NumberText.chars : NumberText → List Char
  | int cs | float cs | malformed cs => cs

/-- The kind of token a number is; `none` when it is malformed or out of range. -/
def NumberText.kind? : NumberText → Option TokenKind
  | int cs => (Decimal.readInt64 cs).map .int
  | float cs => (Decimal.readFloat cs).map .float
  | malformed _ => none

/-- The character that a backslash and `c` stand for. -/
def unescape (c : Char) : Char :=
  match c with
  | 'n' => '\n'
  | 't' => '\t'
  | 'r' => '\r'
  | '0' => '\x00'
  | c => c

/-- A string literal after its opening quote. -/
structure StringText where
  /-- The characters it denotes. -/
  value : List Char
  /-- The characters it is written with, closing quote included. -/
  raw : List Char
  deriving DecidableEq, Repr

/-- Read a string literal up to its closing quote; `none` when the line or the text ends first. -/
def stringText (quote : Char) : List Char → Option StringText
  | [] => none
  | '\\' :: [] => none
  | '\\' :: c :: cs =>
    if c = '\n' then none
    else (stringText quote cs).map fun s => ⟨unescape c :: s.value, '\\' :: c :: s.raw⟩
  | c :: cs =>
    if c = '\n' then none
    else if c = quote then some ⟨[], [c]⟩
    else (stringText quote cs).map fun s => ⟨c :: s.value, c :: s.raw⟩

/-- The symbol that starts with `c`, and whether it takes the next character too. -/
def symbol? (c : Char) (next : Option Char) : Option (Symbol × Bool) :=
  match c with
  | '+' => some (.plus, false)
  | '-' => some (.minus, false)
  | '*' => some (.star, false)
  | '/' => some (.slash, false)
  | '%' => some (.percent, false)
  | '=' => if next = some '=' then some (.eqEq, true) else some (.assign, false)
  | '!' => if next = some '=' then some (.ne, true) else none
  | '<' => if next = some '=' then some (.le, true) else some (.lt, false)
  | '>' => if next = some '=' then some (.ge, true) else some (.gt, false)
  | '(' => some (.leftParen, false)
  | ')' => some (.rightParen, false)
  | '[' => some (.leftBracket, false)
  | ']' => some (.rightBracket, false)
  | '{' => some (.leftBrace, false)
  | '}' => some (.rightBrace, false)
  | ',' => some (.comma, false)
  | ':' => some (.colon, false)
  | '.' => some (.dot, false)
  | _ => none

/-! ## Steps -/

/-- Go past some characters of the rest without a token. -/
def skipOver (s : Scanner) (cs : List Char) : Scanner :=
  { s with rest := s.rest.drop cs.length, pos := s.pos.advance cs, lineStart := false }

/-- Yield the token written with the characters `cs` at the front of the rest. -/
def yieldToken (s : Scanner) (kind : TokenKind) (cs : List Char) : Step :=
  .token ⟨kind, String.ofList cs, s.pos⟩
    { s.skipOver cs with afterSeparator := kind.isNewline }

/-- The current line, without its line break. -/
def currentLine (s : Scanner) : List Char := s.rest.takeWhile (· ≠ '\n')

/-- A fenced block that starts on the current line. Its position is that of the opener, whose column
    counts the bytes of the blanks before it. The block ends with the first later line that closes the
    fence. -/
def fencedBlock (s : Scanner) (f : Fence) : Step :=
  let blanks := s.currentLine.takeWhile Text.isBlank
  let pos : Position := ⟨s.pos.line, s.pos.column + Text.byteLength blanks⟩
  match Text.splitLines s.rest with
  | [] => .fail (.lex pos (.unclosedFence f.opener f.closer))
  | first :: later =>
    let body := later.takeWhile fun l => !f.closes l
    match later.dropWhile fun l => !f.closes l with
    | [] => .fail (.lex pos (.unclosedFence f.opener f.closer))
    | last :: _ =>
      match Text.dedent body with
      | none => .fail ⟨.broken, .unknown⟩
      | some code =>
        let cs := Text.joinLines (first :: body ++ [last])
        .token ⟨.passthrough f.language (String.ofList code), String.ofList cs, pos⟩
          { s.skipOver cs with afterSeparator := false }

/-- A step that starts with the character `c`. -/
def stepChar (s : Scanner) (c : Char) (cs : List Char) : Step :=
  if c = ' ' ∨ c = '\t' ∨ c = '\r' then .skip (s.skipOver [c])
  else if c = '#' then .skip (s.skipOver s.currentLine)
  else if c = '\n' then
    if s.depth = 0 ∧ !s.afterSeparator then
      match s.yieldToken .newline [c] with
      | .token t next => .token t { next with lineStart := true }
      | other => other
    else .skip { s.skipOver [c] with lineStart := true }
  else if c = ';' then
    if s.afterSeparator then .skip (s.skipOver [c]) else s.yieldToken .newline [c]
  else if c = '"' ∨ c = '\'' then
    match stringText c cs with
    | some t => s.yieldToken (.str (String.ofList t.value)) (c :: t.raw)
    | none => .fail (.lex s.pos .unterminatedString)
  else if Decimal.isDigit c then
    let number := numberText (c :: cs)
    match number.kind? with
    | some kind => s.yieldToken kind number.chars
    | none => .fail (.lex s.pos (.malformedNumber (String.ofList number.chars)))
  else if isWordStart c then
    let word := (c :: cs).takeWhile isWordChar
    s.yieldToken (wordKind (String.ofList word)) word
  else
    match symbol? c cs.head? with
    | some (sym, two) =>
      { s with depth := sym.depthAfter s.depth }.yieldToken (.symbol sym)
        ((c :: cs).take (if two then 2 else 1))
    | none => .fail (.lex s.pos (.unexpectedChar c))

/-- One step. At the start of a line outside of brackets a fence is looked for first. -/
def step (s : Scanner) : Step :=
  match if s.lineStart ∧ s.depth = 0 then Fence.opening? s.currentLine else none with
  | some f => s.fencedBlock f
  | none =>
    match s.rest with
    | [] => .finish ⟨.eof, "", s.pos⟩
    | c :: cs => s.stepChar c cs

/-- Read on until the end or a failure; the tokens read before a failure are kept. -/
def run : Nat → Scanner → List Token × Option Error
  | 0, _ => ([], some ⟨.broken, .unknown⟩)
  | fuel + 1, s =>
    match s.step with
    | .skip next => run fuel next
    | .token t next =>
      let (ts, e) := run fuel next
      (t :: ts, e)
    | .finish t => ([t], none)
    | .fail e => ([], some e)

end Scanner

namespace Token

/-- The tokens of a text up to its end or its first failure. Every step but the last reads at least
    one character, so the length of the text bounds their number. -/
def scan (source : String) : List Token × Option Error :=
  let cs := source.toList
  Scanner.run (cs.length + 1) (.start cs)

/-- **The tokens of a text**, the last of which is the end of input. -/
def tokenize (source : String) : Except Error (List Token) :=
  match scan source with
  | (ts, none) => .ok ts
  | (_, some e) => .error e

end Token

end Helios
