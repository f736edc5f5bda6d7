import Helios.Pattern.Charset

/-!
# What patterns mean

A pattern is turned into an expression without flags: sets of characters, conditions on places,
sequences, choices and repetitions. Flags hold from where they are set to the end of the group around
them, also across branches.
-/

namespace Helios.Pattern

/-- Conditions on a place, given the characters before and after it. -/
inductive Look
  | start | stop
  | lineStart | lineStop
  /-- Lines end with a carriage return, a line feed, or both. -/
  | crlfStart | crlfStop
  | boundary (unicode : Bool) | notBoundary (unicode : Bool)
  | wordStart (unicode : Bool) | wordStop (unicode : Bool)
  | wordStartHalf (unicode : Bool) | wordStopHalf (unicode : Bool)
  deriving DecidableEq, Repr, Inhabited

namespace Look

/-- Whether a character belongs to a word. -/
def isWord (unicode : Bool) : Option Char → Bool
  | none => false
  | some c => (Charset.letter unicode .word).mem c

/-- Whether a condition holds between two characters; `none` at the ends of the text. -/
def holds (l : Look) (before after : Option Char) : Bool :=
  match l with
  | start => before.isNone
  | stop => after.isNone
  | lineStart => before.isNone || before == some '\n'
  | lineStop => after.isNone || after == some '\n'
  | crlfStart =>
    before.isNone || before == some '\n' || (before == some '\r' && after != some '\n')
  | crlfStop => after.isNone || after == some '\r' || (after == some '\n' && before != some '\r')
  | boundary u => isWord u before != isWord u after
  | notBoundary u => isWord u before == isWord u after
  | wordStart u => !isWord u before && isWord u after
  | wordStop u => isWord u before && !isWord u after
  | wordStartHalf u => !isWord u before
  | wordStopHalf u => !isWord u after

end Look

/-- **Expressions without flags.** -/
inductive Node
  | empty
  | set (s : Charset)
  | look (l : Look)
  | seq (a b : Node)
  | alts (branches : List Node)
  /-- `min` times or more. -/
  | atLeast (min : Nat) (a : Node)
  /-- `min` times, and up to `extra` times more. -/
  | times (min extra : Nat) (a : Node)
  | group (a : Node)

namespace Node

mutual

/-- Whether an expression matches nothing but the empty text, wherever it matches at all. -/
def onlyEmpty : Node → Bool
  | empty | look _ => true
  | set _ => false
  | seq a b => a.onlyEmpty && b.onlyEmpty
  | alts branches => allOnlyEmpty branches
  | atLeast _ a | times _ _ a | group a => a.onlyEmpty

/-- Whether each of some expressions matches nothing but the empty text. -/
def allOnlyEmpty : List Node → Bool
  | [] => true
  | a :: rest => a.onlyEmpty && allOnlyEmpty rest

end

mutual

/-- Whether an expression may match the empty text, as far as its shape tells. -/
def mayBeEmpty : Node → Bool
  | empty | look _ => true
  | set s => s.spans.isEmpty
  | seq a b => a.mayBeEmpty && b.mayBeEmpty
  | alts branches => anyMayBeEmpty branches
  | atLeast min a | times min _ a => min == 0 || a.mayBeEmpty
  | group a => a.mayBeEmpty

/-- Whether one of some expressions may match the empty text. -/
def anyMayBeEmpty : List Node → Bool
  | [] => false
  | a :: rest => a.mayBeEmpty || anyMayBeEmpty rest

end

mutual

/-- Whether a match is bound to the start of the text, or to its end when it is read backward. -/
def isBound (back : Bool) : Node → Bool
  | empty | set _ => false
  | look l => l == (if back then .stop else .start)
  | seq a b =>
    if back then b.isBound back || (b.onlyEmpty && a.isBound back)
    else a.isBound back || (a.onlyEmpty && b.isBound back)
  | alts branches => allBound back branches
  | atLeast min a | times min _ a => min != 0 && a.isBound back
  | group a => a.isBound back

/-- Whether the matches of all of some expressions are bound. -/
def allBound (back : Bool) : List Node → Bool
  | [] => true
  | a :: rest => a.isBound back && allBound back rest

end

/-- One expression after another; the empty one adds nothing. -/
def then_ : Node → Node → Node
  | empty, b => b
  | a, empty => a
  | a, b => seq a b

/-- An expression from `min` to `max` times. What only matches the empty text is not repeated. -/
def repeated (min : Nat) (max : Option Nat) (a : Node) : Node :=
  let (min, max) :=
    if a.onlyEmpty then (Nat.min min 1, some (Nat.min (max.getD 1) 1)) else (min, max)
  match max with
  | none => atLeast min a
  | some max =>
    if max = 0 then empty else if min = 1 ∧ max = 1 then a else times min (max - min) a

/-- The branches of an expression. -/
def branches : Node → List Node
  | alts bs => bs
  | a => [a]

/-- The set that an expression is, if it is one. -/
def set? : Node → Option Charset
  | set s => some s
  | _ => none

/-- A choice. Sets of characters are put together. -/
def choice (nodes : List Node) : Node :=
  let nodes := nodes.flatMap branches
  match nodes.mapM set? with
  | some sets => set (Text.Ranges.unions sets)
  | none => alts nodes

end Node

/-! ## From patterns to expressions -/

/-- The flags in force. -/
structure Flags where
  ignoreCase : Bool := false
  multiLine : Bool := false
  dotAll : Bool := false
  unicode : Bool := true
  crlf : Bool := false
  deriving Inhabited

namespace Flags

/-- The flags after a list of signs. -/
def apply (f : Flags) (signs : List FlagSign) : Flags :=
  { ignoreCase := (flagState? signs .ignoreCase).getD f.ignoreCase
    multiLine := (flagState? signs .multiLine).getD f.multiLine
    dotAll := (flagState? signs .dotAll).getD f.dotAll
    unicode := (flagState? signs .unicode).getD f.unicode
    crlf := (flagState? signs .crlf).getD f.crlf }

/-- A set with its case variants, when case is ignored. -/
def fold (f : Flags) (s : Charset) : Charset :=
  if f.ignoreCase then (if f.unicode then s.folded else s.foldedAscii) else s

/-- A set that may be negated. Without Unicode it must stay within ASCII. -/
def negate (f : Flags) (span : Span) (negated : Bool) (s : Charset) : Except Problem Charset :=
  let s := if negated then s.compl else s
  if !f.unicode && !s.isAscii then .error (.at_ span .invalidEncoding none) else .ok s

/-- The character of a literal. Without Unicode, two hexadecimal digits are a byte. -/
def literal (f : Flags) (l : Literal) : Except Problem Char :=
  if !f.unicode && l.isByte && 127 < l.char.toNat then .error (.at_ l.span .invalidEncoding none)
  else .ok l.char

/-- The character of a literal in a class. -/
def classLiteral (f : Flags) (l : Literal) : Except Problem Char := do
  let c ← f.literal l
  if !f.unicode && 127 < c.toNat then throw (.at_ l.span .unicodeNotAllowed none)
  pure c

/-- The condition of an assertion. -/
def look (f : Flags) : Assertion → Look
  | .startLine => if f.multiLine then (if f.crlf then .crlfStart else .lineStart) else .start
  | .endLine => if f.multiLine then (if f.crlf then .crlfStop else .lineStop) else .stop
  | .startText => .start
  | .endText => .stop
  | .wordBoundary => .boundary f.unicode
  | .notWordBoundary => .notBoundary f.unicode
  | .wordStart => .wordStart f.unicode
  | .wordEnd => .wordStop f.unicode
  | .wordStartHalf => .wordStartHalf f.unicode
  | .wordEndHalf => .wordStopHalf f.unicode

/-- What a dot matches. -/
def dot (f : Flags) : Charset :=
  if f.dotAll then .all
  else if f.crlf then Text.Ranges.compl (.ofText "A D")
  else (Charset.single '\n').compl

end Flags

mutual

/-- The set of a class. -/
def ClassItem.meaning (f : Flags) : ClassItem → Except Problem Charset
  | .empty _ => .ok Charset.nothing
  | .literal l => do
    let c ← f.classLiteral l
    pure (.single c)
  | .range _ low high => do
    let a ← f.classLiteral low
    let b ← f.classLiteral high
    pure (.range a b)
  | .ascii span kind negated => f.negate span negated (f.fold (.ascii kind))
  | .letter span kind negated => f.negate span negated (.letter f.unicode kind)
  | .property span query negated => do
    if !f.unicode then throw (.at_ span .unicodeNotAllowed none)
    match Charset.query query with
    | .ok s => f.negate span negated (f.fold s)
    | .error issue => throw (.at_ span issue none)
  | .bracketed span negated inner => do
    let s ← inner.meaning f
    f.negate span negated (f.fold s)
  | .union _ items => meanings f items
  | .op _ kind left right => do
    let a ← left.meaning f
    let b ← right.meaning f
    let a := f.fold a
    let b := f.fold b
    match kind with
    | .intersection => pure (a.inter b)
    | .difference => pure (a.diff b)
    | .symmetricDifference => pure (Charset.symm a b)

/-- The union of the sets of some classes. -/
def ClassItem.meanings (f : Flags) : List ClassItem → Except Problem Charset
  | [] => .ok Charset.nothing
  | c :: rest => do
    let a ← c.meaning f
    let b ← meanings f rest
    pure (a.union b)

end

mutual

/-- The expression of a pattern, and the flags after it. -/
def Ast.meaning (f : Flags) : Ast → Except Problem (Node × Flags)
  | .empty _ => .ok (.empty, f)
  | .flags _ signs => .ok (.empty, f.apply signs)
  | .literal l => do
    let c ← f.literal l
    pure (.set (f.fold (.single c)), f)
  | .dot span =>
    if f.unicode then .ok (.set f.dot, f) else .error (.at_ span .invalidEncoding none)
  | .assertion _ kind => .ok (.look (f.look kind), f)
  | .cls c => do
    let s ← c.meaning f
    pure (.set s, f)
  | .repetition _ min max inner => do
    let (a, f) ← inner.meaning f
    pure (.repeated min max a, f)
  | .group _ counts signs inner => do
    let (a, _) ← inner.meaning (f.apply signs)
    pure (if counts then .group a else a, f)
  | .alternation _ branches => do
    let (nodes, f) ← choices f branches
    pure (.choice nodes, f)
  | .concat _ items => sequence f items

/-- The expression of a sequence. -/
def Ast.sequence (f : Flags) : List Ast → Except Problem (Node × Flags)
  | [] => .ok (.empty, f)
  | a :: rest => do
    let (x, f) ← a.meaning f
    let (y, f) ← sequence f rest
    pure (x.then_ y, f)

/-- The expressions of some branches. -/
def Ast.choices (f : Flags) : List Ast → Except Problem (List Node × Flags)
  | [] => .ok ([], f)
  | a :: rest => do
    let (x, f) ← a.meaning f
    let (ys, f) ← choices f rest
    pure (x :: ys, f)

end

end Helios.Pattern
