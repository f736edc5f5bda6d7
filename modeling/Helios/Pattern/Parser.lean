import Helios.Pattern.Problem
import Helios.Text.Property

/-!
# Reading patterns

A reader walks over the characters of a pattern. Groups and classes nest, so the functions that read
them take fuel; every step consumes a character or comes back from a nested piece, which bounds the
fuel that a pattern needs by its length.
-/

namespace Helios.Pattern

/-- **Where reading stands.** -/
structure Reader where
  rest : List Char
  mark : Mark
  /-- Blanks and comments between signs are skipped. -/
  ignoreBlanks : Bool
  /-- The names of groups so far. -/
  names : List (String × Span)
  deriving Repr, Inhabited

/-- A piece of the parser. -/
abbrev Parse := StateT Reader (Except Problem)

namespace Parse

/-- Fail at a piece of the pattern. -/
def fail {α : Type} (span : Span) (issue : Issue) : Parse α := throw (.at_ span issue none)

/-- Fail at a piece of the pattern that repeats an earlier one. -/
def failAgain {α : Type} (span : Span) (issue : Issue) (first : Span) : Parse α :=
  throw (.at_ span issue (some first))

/-- The fuel did not suffice. -/
def exhausted {α : Type} : Parse α := throw .tooLarge

/-- The place of the next character. -/
def mark : Parse Mark := return (← get).mark

/-- The next character; `none` at the end. -/
def char? : Parse (Option Char) := return (← get).rest.head?

/-- The character after the next. -/
def second? : Parse (Option Char) := return (← get).rest.tail.head?

/-- Whether the next character is `c`. -/
def isAt (c : Char) : Parse Bool := return (← char?) == some c

/-- The piece that the next character fills. -/
def charSpan : Parse Span := do
  let r ← get
  match r.rest with
  | c :: _ => pure ⟨r.mark, r.mark.after c⟩
  | [] => pure (.point r.mark)

/-- The piece from a place to here. -/
def since (start : Mark) : Parse Span := return ⟨start, ← mark⟩

/-- Step over a character; whether another one follows. -/
def bump : Parse Bool := do
  let r ← get
  match r.rest with
  | [] => pure false
  | c :: rest =>
    set { r with rest, mark := r.mark.after c }
    pure !rest.isEmpty

/-- Step over a text, if it comes next. -/
def bumpIf (text : String) : Parse Bool := do
  let r ← get
  let cs := text.toList
  if cs.isPrefixOf r.rest then
    set { r with rest := r.rest.drop cs.length, mark := cs.foldl Mark.after r.mark }
    pure true
  else pure false

/-- What is left after blanks and comments, and the place of it. `inComment` until the end of a line. -/
def skipBlanks : Bool → List Char → Mark → List Char × Mark
  | _, [], m => ([], m)
  | true, c :: rest, m => skipBlanks (c ≠ '\n') rest (m.after c)
  | false, c :: rest, m =>
    if Text.isBlank c then skipBlanks false rest (m.after c)
    else if c = '#' then skipBlanks true rest (m.after c)
    else (c :: rest, m)

/-- Step over blanks and comments, if they are to be skipped. -/
def bumpSpace : Parse Unit := modify fun r =>
  if r.ignoreBlanks then
    let (rest, mark) := skipBlanks false r.rest r.mark
    { r with rest, mark }
  else r

/-- Step over a character and what is skipped after it; whether something follows. -/
def bumpAndSpace : Parse Bool := do
  if ← bump then
    bumpSpace
    pure (← char?).isSome
  else pure false

/-- Step over blanks whether they are to be skipped or not. -/
def bumpBlanks : Parse Unit := modify fun r =>
  let blanks := r.rest.takeWhile Text.isBlank
  { r with rest := r.rest.drop blanks.length, mark := blanks.foldl Mark.after r.mark }

/-- The character that would follow the next one when blanks are skipped. A comment sign is stepped
    over once, but what stands in the comment is not. -/
def secondPast : Bool → List Char → Option Char
  | _, [] => none
  | inComment, c :: rest =>
    if Text.isBlank c then secondPast inComment rest
    else if !inComment && c == '#' then secondPast true rest
    else some c

/-- The character after the next, past what is skipped. When only blanks follow, it is the first of
    them. -/
def secondSpaced? : Parse (Option Char) := do
  let r ← get
  if r.ignoreBlanks then pure ((secondPast false r.rest.tail).or r.rest.tail.head?)
  else second?

/-- Read items while they last; `fuel` bounds their number. -/
def takeWhile (p : Char → Bool) (next : Parse Bool) : Nat → Parse (List Char)
  | 0 => pure []
  | n + 1 => do
    match ← char? with
    | some c =>
      if p c then
        let _ ← next
        let cs ← takeWhile p next n
        pure (c :: cs)
      else pure []
    | none => pure []

/-- As many steps as there are characters left, and one. -/
def steps : Parse Nat := return (← get).rest.length + 1

/-! ## Numbers -/

/-- The largest count. -/
def maxCount : Nat := 0xFFFFFFFF

/-- The number that digits denote. -/
def natOf (base : Nat) (digits : List Char) : Nat :=
  digits.foldl (fun n c => base * n + Text.Ranges.hexDigit c) 0

/-- A decimal digit. -/
def isDigit (c : Char) : Bool := '0' ≤ c && c ≤ '9'

/-- A hexadecimal digit. -/
def isHexDigit (c : Char) : Bool := isDigit c || ('a' ≤ c && c ≤ 'f') || ('A' ≤ c && c ≤ 'F')

/-- A count, or what is wrong with it. Blanks around it are stepped over in any case. -/
def decimal : Parse (Except Problem Nat) := do
  bumpBlanks
  let start ← mark
  let digits ← takeWhile isDigit bumpAndSpace (← steps)
  let span ← since start
  let _ ← takeWhile Text.isBlank bumpAndSpace (← steps)
  if digits.isEmpty then pure (.error (.at_ span .countEmpty none))
  else if maxCount < natOf 10 digits then pure (.error (.at_ span .decimalInvalid none))
  else pure (.ok (natOf 10 digits))

/-- The character with a number, if it is one. -/
def scalar? (digits : List Char) : Option Char :=
  let n := natOf 16 digits
  if h : n.isValidChar then some (Char.ofNatAux n h) else none

/-- Exactly `count` hexadecimal digits; `first` for the first of them. -/
def hexDigits (first : Bool) : Nat → Parse (List Char)
  | 0 => pure []
  | n + 1 => do
    if !first then
      if !(← bumpAndSpace) then fail (.point (← mark)) .escapeEnd
    match ← char? with
    | some c =>
      if isHexDigit c then
        let cs ← hexDigits false n
        pure (c :: cs)
      else fail (← charSpan) .hexDigit
    | none => fail (.point (← mark)) .escapeEnd

/-- The characters up to a closing brace; each must pass a test. -/
def untilBrace (check : Char → Option Issue) : Nat → Parse (List Char)
  | 0 => exhausted
  | n + 1 => do
    if ← bumpAndSpace then
      match ← char? with
      | some c =>
        if c = '}' then pure []
        else
          match check c with
          | some issue => fail (← charSpan) issue
          | none =>
            let cs ← untilBrace check n
            pure (c :: cs)
      | none => pure []
    else pure []

/-- A character written in hexadecimal, after its letter. -/
def hex (letter : Char) : Parse (Char × Bool) := do
  if !(← bumpAndSpace) then fail (.point (← mark)) .escapeEnd
  if ← isAt '{' then
    let brace ← mark
    let start := (← charSpan).stop
    let digits ← untilBrace (fun c => if isHexDigit c then none else some .hexDigit) (← steps)
    if (← char?).isNone then fail (← since brace) .escapeEnd
    let span ← since start
    let _ ← bumpAndSpace
    if digits.isEmpty then fail (← since brace) .hexEmpty
    match scalar? digits with
    | some c => pure (c, false)
    | none => fail span .hexInvalid
  else
    let start ← mark
    let digits ← hexDigits true (if letter = 'x' then 2 else if letter = 'u' then 4 else 8)
    let _ ← bumpAndSpace
    match scalar? digits with
    | some c => pure (c, letter = 'x')
    | none => fail (← since start) .hexInvalid

/-! ## Escapes -/

/-- A text up to a mark, and the text after it. -/
def splitAt? (mark : List Char) : List Char → Option (List Char × List Char)
  | [] => none
  | c :: rest =>
    if mark.isPrefixOf (c :: rest) then some ([], (c :: rest).drop mark.length)
    else (splitAt? mark rest).map fun (a, b) => (c :: a, b)

/-- What the text between braces asks for. -/
def queryOf (text : List Char) : Query :=
  let parts := [['!', '='], [':'], ['=']].findSome? fun m => splitAt? m text
  match parts with
  | some (property, value) => .value (String.ofList property) (String.ofList value)
  | none => .name (String.ofList text)

/-- A property of Unicode, after its letter. -/
def property : Parse Query := do
  if !(← bumpAndSpace) then fail (.point (← mark)) .escapeEnd
  match ← char? with
  | some '{' =>
    let text ← untilBrace (fun _ => none) (← steps)
    if (← char?).isNone then fail (.point (← mark)) .escapeEnd
    let _ ← bump
    pure (queryOf text)
  | some '\\' => fail (← charSpan) .unicodeClass
  | some c =>
    let _ ← bumpAndSpace
    pure (.name c.toString)
  | none => fail (.point (← mark)) .escapeEnd

/-- What stands for one character or one place. -/
inductive Primitive
  | literal (l : Literal)
  | cls (c : ClassItem)
  | assertion (span : Span) (kind : Assertion)
  | dot (span : Span)
  deriving Inhabited

namespace Primitive

/-- The piece that a primitive was read from. -/
def span : Primitive → Span
  | literal l => l.span
  | cls c => c.span
  | assertion s _ => s
  | dot s => s

/-- A primitive as a pattern. -/
def toAst : Primitive → Ast
  | literal l => .literal l
  | cls c => .cls c
  | assertion s k => .assertion s k
  | dot s => .dot s

end Primitive

/-- Signs with a meaning of their own. -/
def isMeta (c : Char) : Bool :=
  ['\\', '.', '+', '*', '?', '(', ')', '|', '[', ']', '{', '}', '^', '$', '#', '&', '-', '~'].contains c

/-- Characters that may be escaped though they need not be: ASCII signs but angle brackets. -/
def isEscapable (c : Char) : Bool :=
  isMeta c || (c.toNat < 128 && !c.isAlphanum && c != '<' && c != '>')

/-- Escapes of control characters. -/
def control? : Char → Option Char
  | 'a' => some '\x07'
  | 'f' => some '\x0c'
  | 't' => some '\t'
  | 'n' => some '\n'
  | 'r' => some '\r'
  | 'v' => some '\x0b'
  | _ => none

/-- Escapes of places; a plain word boundary may be followed by a name. -/
def place? : Char → Option Assertion
  | 'A' => some .startText
  | 'z' => some .endText
  | 'b' => some .wordBoundary
  | 'B' => some .notWordBoundary
  | '<' => some .wordStart
  | '>' => some .wordEnd
  | _ => none

/-- Escapes of classes, and whether they are negated. -/
def letterClass? : Char → Option (LetterClass × Bool)
  | 'd' => some (.digit, false)
  | 'D' => some (.digit, true)
  | 's' => some (.space, false)
  | 'S' => some (.space, true)
  | 'w' => some (.word, false)
  | 'W' => some (.word, true)
  | _ => none

/-- A character of the name of a word boundary. -/
def isBoundaryChar (c : Char) : Bool := c.isAlpha || c == '-'

/-- The named word boundary after `\b`, unless the brace opens a count. -/
def namedBoundary (escape : Mark) : Parse (Option Assertion) := do
  let before ← get
  let start ← mark
  if !(← bumpAndSpace) then fail (← since escape) .boundaryEnd
  let contents ← mark
  match ← char? with
  | some c =>
    if !isBoundaryChar c then
      set before
      pure none
    else
      let name ← takeWhile isBoundaryChar bumpAndSpace (← steps)
      if !(← isAt '}') then fail (← since start) .boundaryUnclosed
      let span ← since contents
      let _ ← bump
      match String.ofList name with
      | "start" => pure (some .wordStart)
      | "end" => pure (some .wordEnd)
      | "start-half" => pure (some .wordStartHalf)
      | "end-half" => pure (some .wordEndHalf)
      | _ => fail span .boundaryUnknown
  | none => fail (← since escape) .boundaryEnd

/-- What a backslash stands for. -/
def escape : Parse Primitive := do
  let start ← mark
  let _ ← bump
  match ← char? with
  | none => fail (← since start) .escapeEnd
  | some c =>
    if isDigit c then fail ⟨start, (← charSpan).stop⟩ .backreference
    else if c = 'x' ∨ c = 'u' ∨ c = 'U' then
      let (char, isByte) ← hex c
      pure (.literal ⟨← since start, char, isByte⟩)
    else if c = 'p' ∨ c = 'P' then
      let query ← property
      pure (.cls (.property (← since start) query (c = 'P')))
    else
      let _ ← bump
      let span ← since start
      match letterClass? c, control? c, place? c with
      | some (kind, negated), _, _ => pure (.cls (.letter span kind negated))
      | _, some char, _ => pure (.literal ⟨span, char, false⟩)
      | _, _, some kind =>
        if c = 'b' then
          if ← isAt '{' then
            match ← namedBoundary start with
            | some kind => pure (.assertion (← since start) kind)
            | none => pure (.assertion span kind)
          else pure (.assertion span kind)
        else pure (.assertion span kind)
      | none, none, none =>
        if isEscapable c then pure (.literal ⟨span, c, false⟩) else fail span .escapeUnknown

/-- A character that stands for itself. -/
def verbatim (c : Char) : Parse Literal := do
  let span ← charSpan
  let _ ← bump
  pure ⟨span, c, false⟩

/-- What the next sign stands for, when it opens nothing. -/
def primitive (c : Char) : Parse Primitive := do
  let span ← charSpan
  match c with
  | '\\' => escape
  | '.' =>
    let _ ← bump
    pure (.dot span)
  | '^' =>
    let _ ← bump
    pure (.assertion span .startLine)
  | '$' =>
    let _ ← bump
    pure (.assertion span .endLine)
  | c => pure (.literal (← verbatim c))

/-! ## Classes -/

/-- The items of a class so far, the last first, and the piece they fill. -/
structure Union where
  span : Span
  items : List ClassItem
  deriving Inhabited

namespace Union

/-- No items at a place. -/
def nil (m : Mark) : Union := ⟨.point m, []⟩

/-- Add an item. -/
def push (u : Union) (c : ClassItem) : Union :=
  ⟨⟨if u.items.isEmpty then c.span.start else u.span.start, c.span.stop⟩, c :: u.items⟩

/-- The items as one class. -/
def toItem (u : Union) : ClassItem :=
  match u.items with
  | [] => .empty u.span
  | [c] => c
  | cs => .union u.span cs.reverse

end Union

/-- The ASCII class with a name. -/
def asciiClass? : String → Option AsciiClass
  | "alnum" => some .alnum
  | "alpha" => some .alpha
  | "ascii" => some .ascii
  | "blank" => some .blank
  | "cntrl" => some .cntrl
  | "digit" => some .digit
  | "graph" => some .graph
  | "lower" => some .lower
  | "print" => some .print
  | "punct" => some .punct
  | "space" => some .space
  | "upper" => some .upper
  | "word" => some .word
  | "xdigit" => some .xdigit
  | _ => none

/-- The text of an ASCII class in brackets and colons: its name, whether it is negated, and its
    length. -/
def asciiText? : List Char → Option (String × Bool × Nat)
  | '[' :: ':' :: rest =>
    let (negated, body) := match rest with
      | '^' :: body => (true, body)
      | _ => (false, rest)
    let name := body.takeWhile (· ≠ ':')
    match body.drop name.length with
    | ':' :: ']' :: _ => some (String.ofList name, negated, name.length + 4 + if negated then 1 else 0)
    | _ => none
  | _ => none

/-- An ASCII class, if one comes next. -/
def asciiClass : Parse (Option ClassItem) := do
  let r ← get
  match asciiText? r.rest with
  | none => pure none
  | some (name, negated, length) =>
    match asciiClass? name with
    | none => pure none
    | some kind =>
      let stop := (r.rest.take length).foldl Mark.after r.mark
      set { r with rest := r.rest.drop length, mark := stop }
      pure (some (.ascii ⟨r.mark, stop⟩ kind negated))

/-- One end of a range, or an item alone. -/
def classPrimitive (c : Char) : Parse Primitive := do
  if c = '\\' then escape else pure (.literal (← verbatim c))

/-- A primitive as an item of a class. -/
def toClassItem : Primitive → Parse ClassItem
  | .literal l => pure (.literal l)
  | .cls c => pure c
  | p => fail p.span .classEscape

/-- A primitive as an end of a range. -/
def toEnd : Primitive → Parse Literal
  | .literal l => pure l
  | p => fail p.span .classRangeLiteral

/-- An item or a range; `opened` is the start of the class. -/
def classRange (opened : Span) (c : Char) : Parse ClassItem := do
  let first ← classPrimitive c
  bumpSpace
  match ← char? with
  | none => fail opened .classUnclosed
  | some c =>
    let after ← secondSpaced?
    if c ≠ '-' ∨ after = some ']' ∨ after = some '-' then toClassItem first
    else if !(← bumpAndSpace) then fail opened .classUnclosed
    else
      match ← char? with
      | none => fail opened .classUnclosed
      | some c =>
        let last ← classPrimitive c
        let span : Span := ⟨first.span.start, last.span.stop⟩
        let low ← toEnd first
        let high ← toEnd last
        if high.char < low.char then fail span .classRange
        else pure (.range span low high)

/-- Leading minus signs of a class stand for themselves. -/
def leadingMinus (start : Mark) : Nat → Union → Parse Union
  | 0, u => pure u
  | n + 1, u => do
    if ← isAt '-' then
      let u := u.push (.literal ⟨← charSpan, '-', false⟩)
      if ← bumpAndSpace then leadingMinus start n u else fail (.point start) .classUnclosed
    else pure u

/-- The start of a class: the bracket, a sign of negation, and what stands for itself only there. -/
def classOpen : Parse (Span × Bool × Union) := do
  let start ← mark
  if !(← bumpAndSpace) then fail (← since start) .classUnclosed
  let negated ← isAt '^'
  if negated then
    if !(← bumpAndSpace) then fail (← since start) .classUnclosed
  let u ← leadingMinus start (← steps) (.nil (← mark))
  if u.items.isEmpty && (← isAt ']') then
    let u := u.push (.literal ⟨← charSpan, ']', false⟩)
    if !(← bumpAndSpace) then fail (← since start) .classUnclosed
    pure (← since start, negated, u)
  else pure (← since start, negated, u)

/-- The operation that two equal signs stand for. -/
def setOp? : Char → Option SetOp
  | '&' => some .intersection
  | '-' => some .difference
  | '~' => some .symmetricDifference
  | _ => none

/-- Apply the operation that waits for its right side. -/
def applyPending (pending : Option (SetOp × ClassItem)) (right : ClassItem) : ClassItem :=
  match pending with
  | none => right
  | some (kind, left) => .op ⟨left.span.start, right.span.stop⟩ kind left right

mutual

/-- A class in brackets. -/
def bracketed : Nat → Parse ClassItem
  | 0 => exhausted
  | n + 1 => do
    let start ← mark
    let (opened, negated, u) ← classOpen
    let inner ← classBody n opened none u
    pure (.bracketed (← since start) negated inner)

/-- The items of a class up to its closing bracket. -/
def classBody : Nat → Span → Option (SetOp × ClassItem) → Union → Parse ClassItem
  | 0, _, _, _ => exhausted
  | n + 1, opened, pending, u => do
    bumpSpace
    match ← char? with
    | none => fail opened .classUnclosed
    | some '[' =>
      match ← asciiClass with
      | some c => classBody n opened pending (u.push c)
      | none =>
        let c ← bracketed n
        classBody n opened pending (u.push c)
    | some ']' =>
      let _ ← bump
      pure (applyPending pending u.toItem)
    | some c =>
      match setOp? c, (← second?) == some c with
      | some kind, true =>
        let _ ← bump
        let _ ← bump
        classBody n opened (some (kind, applyPending pending u.toItem)) (.nil (← mark))
      | _, _ =>
        let item ← classRange opened c
        classBody n opened pending (u.push item)

end

/-! ## Groups -/

/-- A character of the name of a group. Names may have the letters and numbers of version 17 of Unicode,
    one version ahead of the classes. -/
def isNameChar (first : Bool) (c : Char) : Bool :=
  c == '_' || Text.alphabetic.mem c || Text.newAlphabetic.mem c
    || (!first && (c == '.' || c == '[' || c == ']' || Text.numeric.mem c || Text.newNumeric.mem c))

/-- The characters of a name up to the closing angle bracket. -/
def nameChars (first : Bool) : Nat → Parse (List Char)
  | 0 => exhausted
  | n + 1 => do
    match ← char? with
    | none => fail (.point (← mark)) .nameEnd
    | some '>' => pure []
    | some c =>
      if isNameChar first c then
        let _ ← bump
        let cs ← nameChars false n
        pure (c :: cs)
      else fail (← charSpan) .nameInvalid

/-- The name of a group; no two groups share one. -/
def groupName : Parse Unit := do
  let start ← mark
  let chars ← nameChars true (← steps)
  let span ← since start
  let _ ← bump
  if chars.isEmpty then fail (.point start) .nameEmpty
  let name := String.ofList chars
  let r ← get
  match r.names.find? fun e => e.1 == name with
  | some (_, first) => failAgain span .nameDuplicate first
  | none => set { r with names := (name, span) :: r.names }

/-- The flag of a letter. -/
def flag? : Char → Option Flag
  | 'i' => some .ignoreCase
  | 'm' => some .multiLine
  | 's' => some .dotAll
  | 'U' => some .swapGreed
  | 'u' => some .unicode
  | 'R' => some .crlf
  | 'x' => some .ignoreBlanks
  | _ => none

/-- Flags up to a colon or the end of the group, after those read before. -/
def flagSigns : Nat → List (FlagSign × Span) → Parse (List (FlagSign × Span))
  | 0, _ => exhausted
  | n + 1, signs => do
    match ← char? with
    | none => fail (.point (← mark)) .flagEnd
    | some c =>
      if c = ':' ∨ c = ')' then
        match signs.getLast? with
        | some (.minus, span) => fail span .flagDanglingMinus
        | _ => pure signs
      else
        let span ← charSpan
        let sign ← if c = '-' then pure FlagSign.minus
          else match flag? c with
            | some f => pure (.flag f)
            | none => fail span .flagUnknown
        match signs.find? fun e => e.1 == sign with
        | some (_, first) =>
          failAgain span (if c = '-' then .flagRepeatedMinus else .flagDuplicate) first
        | none =>
          let _ ← bump
          flagSigns n (signs ++ [(sign, span)])

/-- What an opening parenthesis starts: flags alone, or a group with flags. -/
inductive Opening
  | flags (span : Span) (signs : List FlagSign)
  | group (opened : Span) (counts : Bool) (signs : List FlagSign)
  deriving Inhabited

/-- The start of a group. -/
def opening : Parse Opening := do
  let opened ← charSpan
  let _ ← bump
  bumpSpace
  for text in ["?=", "?!", "?<=", "?<!"] do
    if ← bumpIf text then fail ⟨opened.start, ← mark⟩ .lookAround
  let inner ← mark
  if ← (do if ← bumpIf "?P<" then pure true else bumpIf "?<") then
    groupName
    pure (.group opened true [])
  else if ← bumpIf "?" then
    if (← char?).isNone then fail opened .groupUnclosed
    let signs ← flagSigns (← steps) []
    let closed ← isAt ')'
    let _ ← bump
    if closed then
      if signs.isEmpty then fail (.point inner) .repetitionMissing
      pure (.flags ⟨opened.start, ← mark⟩ (signs.map Prod.fst))
    else pure (.group opened false (signs.map Prod.fst))
  else pure (.group opened true [])

/-! ## Repetitions -/

/-- What a repetition repeats: the last item, the items being in reverse. -/
def repeated (items : List Ast) : Parse (Ast × List Ast) := do
  match items with
  | .empty _ :: _ | .flags .. :: _ | [] => fail (.point (← mark)) .repetitionMissing
  | a :: before => pure (a, before)

/-- A repetition by a sign. -/
def uncounted (min : Nat) (max : Option Nat) (items : List Ast) : Parse (List Ast) := do
  let (a, before) ← repeated items
  if ← bump then
    if ← isAt '?' then let _ ← bump
  pure (.repetition ⟨a.span.start, ← mark⟩ min max a :: before)

/-- A count that must be right. -/
def require (count : Except Problem Nat) : Parse Nat :=
  match count with
  | .ok n => pure n
  | .error p => throw p

/-- A repetition by counts in braces. -/
def counted (items : List Ast) : Parse (List Ast) := do
  let start ← mark
  let (a, before) ← repeated items
  if !(← bumpAndSpace) then fail (← since start) .countUnclosed
  let low ← decimal
  match ← char? with
  | none => fail (← since start) .countUnclosed
  | some c =>
    let (min, max) ← if c = ',' then do
        if !(← bumpAndSpace) then fail (← since start) .countUnclosed
        if ← isAt '}' then pure (← require low, none)
        else
          let min ← require low
          let max ← require (← decimal)
          pure (min, some max)
      else do
        let n ← require low
        pure (n, some n)
    if !(← isAt '}') then fail (← since start) .countUnclosed
    if ← bumpAndSpace then
      if ← isAt '?' then let _ ← bump
    let span ← since start
    match max with
    | some m => if m < min then fail span .countInvalid
    | none => pure ()
    pure (.repetition ⟨a.span.start, span.stop⟩ min max a :: before)

/-! ## Whole patterns -/

/-- Items one after another. -/
def concatOf (span : Span) : List Ast → Ast
  | [] => .empty span
  | [a] => a
  | items => .concat span items

mutual

/-- The branches of a group, or of the whole pattern when no group is opened. -/
def branches : Nat → Option Span → Mark → List Ast → Parse Ast
  | 0, _, _, _ => exhausted
  | n + 1, opened, start, done => do
    let begin ← mark
    let items ← sequence n []
    let stop ← mark
    let branch := concatOf ⟨begin, stop⟩ items.reverse
    let whole := match done with
      | [] => branch
      | _ => .alternation ⟨start, stop⟩ (done.reverse ++ [branch])
    match ← char?, opened with
    | some '|', _ =>
      let _ ← bump
      branches n opened start (branch :: done)
    | some _, some _ => pure whole
    | some _, none => fail (← charSpan) .groupUnopened
    | none, some span => fail span .groupUnclosed
    | none, none => pure whole

/-- Items up to the end of a branch, in reverse after those read before. -/
def sequence : Nat → List Ast → Parse (List Ast)
  | 0, _ => exhausted
  | n + 1, items => do
    bumpSpace
    match ← char? with
    | none | some '|' | some ')' => pure items
    | some '(' =>
      let a ← group n
      sequence n (a :: items)
    | some '[' =>
      let c ← bracketed n
      sequence n (.cls c :: items)
    | some '?' => sequence n (← uncounted 0 (some 1) items)
    | some '*' => sequence n (← uncounted 0 none items)
    | some '+' => sequence n (← uncounted 1 none items)
    | some '{' => sequence n (← counted items)
    | some c =>
      let p ← primitive c
      sequence n (p.toAst :: items)

/-- A group, or flags for what follows. Whether blanks are skipped is a matter of each group. -/
def group : Nat → Parse Ast
  | 0 => exhausted
  | n + 1 => do
    match ← opening with
    | .flags span signs =>
      modify fun r => { r with ignoreBlanks := (flagState? signs .ignoreBlanks).getD r.ignoreBlanks }
      pure (.flags span signs)
    | .group opened counts signs =>
      let outer := (← get).ignoreBlanks
      modify fun r => { r with ignoreBlanks := (flagState? signs .ignoreBlanks).getD outer }
      let inner ← branches n (some opened) (← mark) []
      modify fun r => { r with ignoreBlanks := outer }
      let _ ← bump
      pure (.group ⟨opened.start, ← mark⟩ counts signs inner)

end

end Parse

/-! ## Nesting -/

mutual

/-- Fail where a class nests too deep; `depth` is how deep it stands itself. -/
def ClassItem.checkDepth : Nat → ClassItem → Except Problem Unit
  | depth, .bracketed span _ inner => do
    if maxNesting ≤ depth then throw (.at_ span .tooDeep none)
    inner.checkDepth (depth + 1)
  | depth, .union span items => do
    if maxNesting ≤ depth then throw (.at_ span .tooDeep none)
    checkDepths (depth + 1) items
  | depth, .op span _ left right => do
    if maxNesting ≤ depth then throw (.at_ span .tooDeep none)
    left.checkDepth (depth + 1)
    right.checkDepth (depth + 1)
  | _, _ => .ok ()

/-- Fail where one of some classes nests too deep. -/
def ClassItem.checkDepths : Nat → List ClassItem → Except Problem Unit
  | _, [] => .ok ()
  | depth, c :: rest => do
    c.checkDepth depth
    checkDepths depth rest

end

mutual

/-- Fail where a pattern nests too deep. -/
def Ast.checkDepth : Nat → Ast → Except Problem Unit
  | depth, .cls c => c.checkDepth depth
  | depth, .repetition span _ _ inner => do
    if maxNesting ≤ depth then throw (.at_ span .tooDeep none)
    inner.checkDepth (depth + 1)
  | depth, .group span _ _ inner => do
    if maxNesting ≤ depth then throw (.at_ span .tooDeep none)
    inner.checkDepth (depth + 1)
  | depth, .alternation span branches => do
    if maxNesting ≤ depth then throw (.at_ span .tooDeep none)
    checkDepths (depth + 1) branches
  | depth, .concat span items => do
    if maxNesting ≤ depth then throw (.at_ span .tooDeep none)
    checkDepths (depth + 1) items
  | _, _ => .ok ()

/-- Fail where one of some patterns nests too deep. -/
def Ast.checkDepths : Nat → List Ast → Except Problem Unit
  | _, [] => .ok ()
  | depth, a :: rest => do
    a.checkDepth depth
    checkDepths depth rest

end

/-- **Read a pattern.** -/
def Ast.parse (pattern : List Char) : Except Problem Ast := do
  let fuel := 8 * pattern.length + 32
  let (a, _) ← (Parse.branches fuel none .start []).run ⟨pattern, .start, false, []⟩
  a.checkDepth 0
  pure a

end Helios.Pattern
