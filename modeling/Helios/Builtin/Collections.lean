import Helios.Builtin.Texts

/-!
# Built-in functions on lists and dicts
-/

namespace Helios.Builtin

/-- `start`, `start + step`, …: `count` integers, put in front of `tail`. -/
def progression (start step : Int) : Nat → List Value → List Value
  | 0, tail => tail
  | count + 1, tail =>
    progression start step count (.int (Int64.ofInt (start + step * count)) :: tail)

/-- How many steps lead from `start` to before `stop`. -/
def stepCount (start stop step : Int) : Int :=
  let span := stop - start
  if span.sign = step.sign then (span + step - step.sign).tdiv step else 0

/-- `range(stop)`, `range(start, stop)` or `range(start, stop, step)`. -/
def range : PureBody := fun args => do
  let (start, stop, step) ←
    match args.length with
    | 1 => do
      let stop ← intArg "range" args 0
      pure ((0 : Int), stop.toInt, (1 : Int))
    | 2 => do
      let start ← intArg "range" args 0
      let stop ← intArg "range" args 1
      pure (start.toInt, stop.toInt, 1)
    | _ => do
      let start ← intArg "range" args 0
      let stop ← intArg "range" args 1
      let step ← intArg "range" args 2
      pure (start.toInt, stop.toInt, step.toInt)
  if step = 0 then throw (.value .zeroStep)
  else
    let count := stepCount start stop step
    if (maxBuilt : Int) < count then throw (.value (.rangeTooLarge count))
    else pure (.list (progression start step count.toNat []))

/-- `append(items, v)`. -/
def append : PureBody := fun args => do
  let items ← listArg "append" args 0
  let v ← arg args 1
  pure (.list (items ++ [v]))

/-- `insert(items, i, v)`. -/
def insert : PureBody := fun args => do
  let items ← listArg "insert" args 0
  let i := clampIndex (← intArg "insert" args 1) items.length
  let v ← arg args 2
  pure (.list (items.take i ++ v :: items.drop i))

/-- A list without its first item that satisfies `p`. -/
def dropFirst {α : Type} (p : α → Bool) (items : List α) : List α := items.eraseP p

/-- `remove(x, y)`: the first equal item of a list, or the entries of a dict with an equal key. -/
def remove : PureBody := fun args => do
  match ← arg args 0 with
  | .list items =>
    let v ← arg args 1
    pure (.list (dropFirst (fun item => Value.eqv item v) items))
  | .dict pairs =>
    let key ← arg args 1
    pure (.dict (pairs.filter fun e => !Value.eqv e.1 key))
  | v => throw (wrongType "remove" "a list or dict" 0 v)

/-- `pop(items)` without the last item, or `pop(items, i)` without the item at a place. -/
def pop : PureBody := fun args => do
  let items ← listArg "pop" args 0
  if items.isEmpty then throw (.value (.fromEmptyList "pop"))
  else
    let i ←
      if args.length < 2 then pure (items.length - 1)
      else Value.resolveIndex (← intArg "pop" args 1) items.length
    pure (.list (items.eraseIdx i))

/-- `first(items)`. -/
def first : PureBody := fun args => do
  match (← listArg "first" args 0).head? with
  | some v => pure v
  | none => throw (.value (.ofEmptyList "first"))

/-- `last(items)`. -/
def last : PureBody := fun args => do
  match (← listArg "last" args 0).getLast? with
  | some v => pure v
  | none => throw (.value (.ofEmptyList "last"))

/-- `reverse(x)` of a list or string. -/
def reverse : PureBody := fun args => do
  match ← arg args 0 with
  | .list items => pure (.list items.reverse)
  | .str s => pure (Value.ofChars s.toList.reverse)
  | v => throw (wrongType "reverse" "a list or string" 0 v)

/-- Whether `a` may stand before `b` in a sorted list. -/
def sortsBefore (a b : Value) : Bool :=
  match Value.compare a b with
  | .ok .gt => false
  | _ => true

/-- Whether `a` comes strictly before `b`. -/
def comesBefore (a b : Value) : Bool :=
  match Value.compare a b with
  | .ok .lt => true
  | _ => false

/-- Put `v` into items that are in descending order: it goes past the items that it comes before. -/
def insertDescending (v : Value) : List Value → List Value
  | [] => [v]
  | w :: rest => if comesBefore v w then w :: insertDescending v rest else v :: w :: rest

/-- The longest list that is sorted by insertion. -/
def maxInserted : Nat := 20

/-- Items in ascending order, those that compare equal in the order they had. A NaN compares equal to
    every number, and so a list with one has no such order; what comes of it depends on the comparisons
    made, which for a short list are those of an insertion from the end. -/
def sorted (items : List Value) : List Value :=
  if items.length ≤ maxInserted then
    (items.foldl (fun made v => insertDescending v made) []).reverse
  else items.mergeSort sortsBefore

/-- Check that a value can be compared with every one of some values. -/
def comparableWith (v : Value) : List Value → Except Cause Unit
  | [] => pure ()
  | w :: rest => do
    let _ ← Value.compare v w
    comparableWith v rest

/-- `sort(items)`: ascending, keeping the order of items that compare equal. All items must be
    comparable with the first. -/
def sort : PureBody := fun args => do
  let items ← listArg "sort" args 0
  match items with
  | [] => pure ()
  | v :: _ => comparableWith v items
  pure (.list (sorted items))

/-- The bounds of a slice of a sequence of length `n`; the end is never before the start. -/
def sliceBounds (args : List Value) (n : Nat) : Except Cause (Nat × Nat) := do
  let start := clampIndex (← intArg "slice" args 1) n
  let stop ← if args.length < 3 then pure n else pure (clampIndex (← intArg "slice" args 2) n)
  pure (start, max stop start)

/-- `slice(x, start)` or `slice(x, start, stop)` of a list or string. -/
def slice : PureBody := fun args => do
  match ← arg args 0 with
  | .list items =>
    let (i, j) ← sliceBounds args items.length
    let part ← Value.itemsBetween items i j
    pure (.list part)
  | .str s =>
    let (i, j) ← sliceBounds args s.toList.length
    let part ← Value.itemsBetween s.toList i j
    pure (Value.ofChars part)
  | v => throw (wrongType "slice" "a list or string" 0 v)

/-- `keys(d)`. -/
def keys : PureBody := fun args => do
  let pairs ← dictArg "keys" args 0
  pure (.list (pairs.map Prod.fst))

/-- `values(d)`. -/
def values : PureBody := fun args => do
  let pairs ← dictArg "values" args 0
  pure (.list (pairs.map Prod.snd))

/-- `has_key(d, key)`. -/
def hasKey : PureBody := fun args => do
  let pairs ← dictArg "has_key" args 0
  let key ← arg args 1
  pure (.bool (Value.dictGet? pairs key).isSome)

/-- `set(x, key, v)`: a dict or list with one value changed. -/
def set : PureBody := fun args => do
  match ← arg args 0 with
  | .dict pairs =>
    let key ← arg args 1
    let v ← arg args 2
    pure (.dict (Value.dictSet pairs key v))
  | .list items =>
    let i ← Value.resolveIndex (← intArg "set" args 1) items.length
    let v ← arg args 2
    pure (.list (items.set i v))
  | v => throw (wrongType "set" "a list or dict" 0 v)

/-- `get(x, key)` or `get(x, key, default)` of a dict or list. -/
def get : PureBody := fun args => do
  let default := (args[2]?).getD .nil
  match ← arg args 0 with
  | .dict pairs =>
    let key ← arg args 1
    pure ((Value.dictGet? pairs key).getD default)
  | .list items =>
    let i ← intArg "get" args 1
    match Value.place? i.toInt items.length with
    | some j => Value.itemAt items j
    | none => pure default
  | v => throw (wrongType "get" "a list or dict" 0 v)

end Helios.Builtin
