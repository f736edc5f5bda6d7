import Helios.Guest.Small.Syntax
import Helios.Decimal.Read
import Helios.Text.Ranges

/-!
# Tokens of the small guest language
-/

namespace Helios.Guest.Small

/-- What a token is. -/
inductive TokenKind
  | name (s : String)
  | keyword (s : String)
  | const (c : Const)
  /-- An operator or a bracket. -/
  | sign (s : String)
  | stop
  deriving Inhabited

/-- A token, its text and its line. -/
structure Token where
  kind : TokenKind
  text : String
  line : Nat
  deriving Inhabited

namespace Token

/-- The words that cannot be names. -/
def keywords : List String :=
  ["and", "break", "do", "else", "elseif", "end", "false", "for", "function", "goto", "if", "in",
   "local", "nil", "not", "or", "repeat", "return", "then", "true", "until", "while"]

/-- The signs, longer ones first. -/
def signs : List String :=
  ["...", "..", "==", "~=", "<=", ">=", "//", "::", "<<", ">>", "+", "-", "*", "/", "%", "^", "#", "&",
   "~", "|", "<", ">", "=", "(", ")", "\x7b", "\x7d", "[", "]", ";", ":", ",", "."]

/-- The start of a name. -/
def startsName (c : Char) : Bool := c.isAlpha || c == '_'

/-- A character of a name. -/
def inName (c : Char) : Bool := c.isAlphanum || c == '_'

/-- A failure at a piece of text. -/
def issue (line : Nat) (what text : String) : String := atLine line (what ++ " near '" ++ text ++ "'")

/-- A character of a number; a sign belongs to it after the mark of a power. -/
def numberText : Option Char → List Char → List Char
  | _, [] => []
  | before, c :: rest =>
    let isPower := before == some 'e' || before == some 'E'
    if inName c || c == '.' || (isPower && (c == '+' || c == '-')) then
      c :: numberText (some c) rest
    else []

/-- The number of a decimal text: a whole one that does not fit 64 bits becomes a float. -/
def decimal? (cs : List Char) : Option Const :=
  match Decimal.readNat cs with
  | some n =>
    some (if Decimal.fitsInt n then .int (Int64.ofInt n) else .float (Decimal.floatOfDecimal n 0))
  | none => (Decimal.readMagnitude cs).map Const.float

/-- A hexadecimal digit. -/
def isHex (c : Char) : Bool := c.isDigit || ('a' ≤ c.toLower && c.toLower ≤ 'f')

/-- The number of a text. Hexadecimal ones wrap around. -/
def number? (cs : List Char) : Option Const :=
  match cs with
  | '0' :: x :: digits =>
    if x.toLower = 'x' then
      if digits ≠ [] ∧ digits.all isHex then
        some (.int (Int64.ofInt (Text.Ranges.hexNumber digits)))
      else none
    else decimal? cs
  | _ => decimal? cs

/-- One escape after the backslash: the bytes it stands for, and what follows. -/
def escape? : List Char → Option (List UInt8 × List Char)
  | 'n' :: rest => some ([10], rest)
  | 't' :: rest => some ([9], rest)
  | 'r' :: rest => some ([13], rest)
  | 'a' :: rest => some ([7], rest)
  | 'b' :: rest => some ([8], rest)
  | 'f' :: rest => some ([12], rest)
  | 'v' :: rest => some ([11], rest)
  | '\\' :: rest => some ([92], rest)
  | '"' :: rest => some ([34], rest)
  | '\'' :: rest => some ([39], rest)
  | '\n' :: rest => some ([10], rest)
  | 'x' :: a :: b :: rest =>
    if isHex a && isHex b then some ([UInt8.ofNat (Text.Ranges.hexNumber [a, b])], rest) else none
  | 'z' :: rest => some ([], rest.dropWhile Char.isWhitespace)
  | cs =>
    let digits := (cs.take 3).takeWhile Char.isDigit
    let n := Decimal.natOfDigits digits
    if digits = [] ∨ 255 < n then none else some ([UInt8.ofNat n], cs.drop digits.length)

/-- The bytes of a string up to its closing quote, and what follows; `fuel` bounds the characters. -/
def stringBytes (quote : Char) : Nat → List Char → Option (List UInt8 × List Char)
  | 0, _ => none
  | _, [] => none
  | fuel + 1, c :: rest =>
    if c = quote then some ([], rest)
    else if c = '\n' then none
    else if c = '\\' then do
      let (bytes, rest) ← escape? rest
      let (more, rest) ← stringBytes quote fuel rest
      pure (bytes ++ more, rest)
    else do
      let (more, rest) ← stringBytes quote fuel rest
      pure (String.utf8EncodeChar c ++ more, rest)

/-- The tokens of a text; `fuel` bounds the characters. -/
def tokenize : Nat → Nat → List Char → Except String (List Token)
  | 0, line, _ => .ok [⟨.stop, "<eof>", line⟩]
  | _, line, [] => .ok [⟨.stop, "<eof>", line⟩]
  | fuel + 1, line, c :: rest =>
    if c = '\n' then tokenize fuel (line + 1) rest
    else if c.isWhitespace || c == '\x0b' || c == '\x0c' then tokenize fuel line rest
    else if c = '-' ∧ rest.head? = some '-' then
      tokenize fuel line (rest.dropWhile (· ≠ '\n'))
    else if startsName c then do
      let word := String.ofList ((c :: rest).takeWhile inName)
      let more ← tokenize fuel line ((c :: rest).dropWhile inName)
      let kind := if keywords.contains word then TokenKind.keyword word else .name word
      pure (⟨kind, word, line⟩ :: more)
    else if c.isDigit || (c == '.' && (rest.head?.map Char.isDigit).getD false) then do
      let text := numberText none (c :: rest)
      match number? text with
      | none => throw (issue line "malformed number" (String.ofList text))
      | some n =>
        let more ← tokenize fuel line ((c :: rest).drop text.length)
        pure (⟨.const n, String.ofList text, line⟩ :: more)
    else if c = '"' ∨ c = '\'' then
      match stringBytes c (rest.length + 1) rest with
      | none => throw (issue line "unfinished string" (String.ofList ((c :: rest).takeWhile (· ≠ '\n'))))
      | some (bytes, after) => do
        let used := (c :: rest).take (rest.length + 1 - after.length)
        let more ← tokenize fuel (line + used.count '\n') after
        pure (⟨.const (.str bytes), String.ofList used, line⟩ :: more)
    else
      match signs.find? fun s => s.toList.isPrefixOf (c :: rest) with
      | some s => do
        let more ← tokenize fuel line ((c :: rest).drop s.length)
        pure (⟨.sign s, s, line⟩ :: more)
      | none => do
        let more ← tokenize fuel line rest
        pure (⟨.sign c.toString, c.toString, line⟩ :: more)

end Token

end Helios.Guest.Small
