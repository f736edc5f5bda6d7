import Helios.Builtin.Args
import Helios.Platform
import Helios.Text.Casing
import Helios.Text.Search
import Helios.Text.Lines

/-!
# Built-in functions on strings
-/

namespace Helios.Builtin

open Value (ofChars)

/-- `len(x)` of a string, list or dict. -/
def len : PureBody := fun args => do
  match ← arg args 0 with
  | .str s => pure (Value.ofNat s.length)
  | .list items => pure (Value.ofNat items.length)
  | .dict pairs => pure (Value.ofNat pairs.length)
  | v => throw (wrongType "len" "a string, list or dict" 0 v)

/-- A function from text to text. -/
def onText (function : String) (f : List Char → List Char) : PureBody := fun args => do
  let s ← strArg function args 0
  pure (ofChars (f s.toList))

/-- `split(s)` into words, `split(s, sep)` at a separator, and into characters at an empty one. -/
def split : PureBody := fun args => do
  let s ← strArg "split" args 0
  if args.length < 2 then pure (.list ((Text.words s.toList).map ofChars))
  else
    let sep ← strArg "split" args 1
    if sep.isEmpty then pure (.list (s.toList.map fun c => ofChars [c]))
    else pure (.list ((Text.split sep.toList s.toList).map ofChars))

/-- `join(items, sep)`. -/
def join : PureBody := fun args => do
  let items ← listArg "join" args 0
  let sep ← strArg "join" args 1
  pure (.str (String.intercalate sep (items.map Value.display)))

/-- `replace(s, old, new)`; nothing is replaced for an empty `old`. -/
def replace : PureBody := fun args => do
  let s ← strArg "replace" args 0
  let old ← strArg "replace" args 1
  let new ← strArg "replace" args 2
  if old.isEmpty then pure (.str s)
  else pure (ofChars (Text.replace old.toList new.toList s.toList))

/-- A bound of a slice of a sequence of length `n`: negative bounds count from the end, and bounds
    outside become the nearer end. -/
def clampIndex (i : Int64) (n : Nat) : Nat :=
  if i.toInt < 0 then (n + i.toInt).toNat else min i.toInt.toNat n

/-- `substr(s, start)` or `substr(s, start, length)`. -/
def substr : PureBody := fun args => do
  let cs := (← strArg "substr" args 0).toList
  let start := clampIndex (← intArg "substr" args 1) cs.length
  let stop ←
    if args.length < 3 then pure cs.length
    else
      let count ← intArg "substr" args 2
      pure (min (start + count.toInt.toNat) cs.length)
  let part ← Value.itemsBetween cs start stop
  pure (ofChars part)

/-- `contains(x, y)` for strings, lists and dicts. -/
def contains : PureBody := fun args => do
  match ← arg args 0 with
  | .str s =>
    let needle ← strArg "contains" args 1
    pure (.bool (Text.contains needle.toList s.toList))
  | .list items =>
    let v ← arg args 1
    pure (.bool (items.any fun item => Value.eqv item v))
  | .dict pairs =>
    let key ← arg args 1
    pure (.bool (Value.dictGet? pairs key).isSome)
  | v => throw (wrongType "contains" "a string, list or dict" 0 v)

/-- `starts_with(s, t)`. -/
def startsWith : PureBody := fun args => do
  let s ← strArg "starts_with" args 0
  let t ← strArg "starts_with" args 1
  pure (.bool (t.toList.isPrefixOf s.toList))

/-- `ends_with(s, t)`. -/
def endsWith : PureBody := fun args => do
  let s ← strArg "ends_with" args 0
  let t ← strArg "ends_with" args 1
  pure (.bool (t.toList.isSuffixOf s.toList))

/-- The place that a search found, or `-1`. -/
def placeOrNone (found : Option Nat) : Value :=
  match found with
  | some i => Value.ofNat i
  | none => .int (-1)

/-- `find(x, y)`: the place of the first occurrence in a string or list. -/
def find : PureBody := fun args => do
  match ← arg args 0 with
  | .str s =>
    let needle ← strArg "find" args 1
    pure (placeOrNone (Text.find? needle.toList s.toList))
  | .list items =>
    let v ← arg args 1
    pure (placeOrNone (items.findIdx? fun item => Value.eqv item v))
  | v => throw (wrongType "find" "a string or list" 0 v)

/-- `n` copies of a list, one after the other. -/
def copies {α : Type} (n : Nat) (items : List α) : List α :=
  if items.isEmpty then [] else n.repeat (fun acc => items ++ acc) []

/-- `repeat(x, n)` of a string or list; a negative count is none. -/
def repeat_ : PureBody := fun args => do
  let n := (← intArg "repeat" args 1).toInt.toNat
  match ← arg args 0 with
  | .str s =>
    if maxBuilt < s.utf8ByteSize * n then throw (.value .repeatTooLarge)
    else pure (.str (Text.copies n s))
  | .list items =>
    if maxBuilt < items.length * n then throw (.value .repeatTooLarge)
    else pure (.list (copies n items))
  | v => throw (wrongType "repeat" "a string or list" 0 v)

/-- `matches(text, pattern)`. -/
def matches_ (regex : Regex) : PureBody := fun args => do
  let text ← strArg "matches" args 0
  let pattern ← strArg "matches" args 1
  match regex pattern with
  | .ok occursIn => pure (.bool (occursIn text))
  | .error reason => throw (.value (.invalidPattern reason))

end Helios.Builtin
