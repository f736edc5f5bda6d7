import Helios.Position
import Helios.Text.Printable
import Helios.Decimal.Layout

/-!
# Tokens

The words of the language: keywords, symbols, names, literals, separators and fenced blocks of another
language. A token keeps the text it was read from and the position of its first character.
-/

namespace Helios

/-- Reserved words. -/
inductive Keyword
  | let_ | print | if_ | elif | else_ | while_ | for_ | in_ | def_ | return_ | break_ | continue_
  | contain | call | ui | game | and | or | not | true_ | false_ | nil
  deriving DecidableEq, Repr, Inhabited

namespace Keyword

/-- The spelling of a keyword. -/
def text : Keyword → String
  | let_ => "let"
  | print => "print"
  | if_ => "if"
  | elif => "elif"
  | else_ => "else"
  | while_ => "while"
  | for_ => "for"
  | in_ => "in"
  | def_ => "solar_def"
  | return_ => "return"
  | break_ => "break"
  | continue_ => "continue"
  | contain => "contain"
  | call => "call"
  | ui => "ui"
  | game => "game"
  | and => "and"
  | or => "or"
  | not => "not"
  | true_ => "true"
  | false_ => "false"
  | nil => "nil"

/-- Every keyword. -/
def all : List Keyword :=
  [let_, print, if_, elif, else_, while_, for_, in_, def_, return_, break_, continue_, contain, call,
    ui, game, and, or, not, true_, false_, nil]

/-- The keyword a word spells. -/
def ofText? (s : String) : Option Keyword := all.find? fun k => k.text == s

end Keyword

/-- Operators, brackets and punctuation. -/
inductive Symbol
  | plus | minus | star | slash | percent | eqEq | ne | lt | le | gt | ge | assign
  | leftParen | rightParen | leftBracket | rightBracket | leftBrace | rightBrace
  | comma | colon | dot
  deriving DecidableEq, Repr, Inhabited

namespace Symbol

/-- The spelling of a symbol. -/
def text : Symbol → String
  | plus => "+"
  | minus => "-"
  | star => "*"
  | slash => "/"
  | percent => "%"
  | eqEq => "=="
  | ne => "!="
  | lt => "<"
  | le => "<="
  | gt => ">"
  | ge => ">="
  | assign => "="
  | leftParen => "("
  | rightParen => ")"
  | leftBracket => "["
  | rightBracket => "]"
  | leftBrace => "\x7b"
  | rightBrace => "\x7d"
  | comma => ","
  | colon => ":"
  | dot => "."

/-- How a symbol changes the number of open brackets. Too many closers leave it at zero. -/
def depthAfter (depth : Nat) : Symbol → Nat
  | leftParen | leftBracket | leftBrace => depth + 1
  | rightParen | rightBracket | rightBrace => depth - 1
  | _ => depth

end Symbol

/-- **What a token is.** -/
inductive TokenKind
  | ident (name : String)
  | int (n : Int64)
  | float (x : Float)
  | str (s : String)
  | symbol (s : Symbol)
  | keyword (k : Keyword)
  /-- The word that closes a block. -/
  | end_
  /-- A line break or `;`. -/
  | newline
  /-- A fenced block of another language, without its common indentation. -/
  | passthrough (language code : String)
  | eof
  deriving Repr, Inhabited

namespace TokenKind

/-- A token in words, as error messages name it. -/
def describe : TokenKind → String
  | ident s => "identifier `" ++ s ++ "`"
  | int n => "number `" ++ toString n.toInt ++ "`"
  | float x => "number `" ++ Decimal.Layout.plain.write x ++ "`"
  | str s => "string " ++ Text.quote s
  | symbol s => "`" ++ s.text ++ "`"
  | keyword k => "keyword `" ++ k.text ++ "`"
  | end_ => "`end`"
  | newline => "end of line"
  | passthrough language _ => language ++ " block"
  | eof => "end of input"

/-- Whether the token is the given symbol. -/
def isSymbol (k : TokenKind) (s : Symbol) : Bool :=
  match k with
  | symbol t => t == s
  | _ => false

/-- Whether the token is the given keyword. -/
def isKeyword (k : TokenKind) (w : Keyword) : Bool :=
  match k with
  | keyword v => v == w
  | _ => false

/-- Whether the token is a line break or `;`. -/
def isNewline : TokenKind → Bool
  | newline => true
  | _ => false

end TokenKind

/-- **A token**: its kind, the text it was read from and where that text starts. -/
structure Token where
  kind : TokenKind
  text : String
  pos : Position
  deriving Repr, Inhabited

end Helios
