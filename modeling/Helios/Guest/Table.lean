import Helios.Guest.Val

/-!
# Tables of the guest language

A table is a list of entries in the order in which their keys were first set. A key is never `nil` or
NaN. The keys 1, 2, … are the places of a table.

The length of a table is a border: a place that is filled while the next one is not. When places are
filled without a gap there is one border. Else it depends on the layout of the table which of them is its
length: a table keeps its first places in a row, and has room for some other keys. The layout changes
when a key has no room. It is then the longest row that is more than half full, of a length that is a
power of two.
-/

namespace Helios.Guest

/-- **How a table keeps its keys**: how many places it keeps in a row, and for how many other keys it has
    room. -/
structure Layout where
  row : Nat := 0
  room : Nat := 0
  deriving Repr, Inhabited

namespace Layout

/-- The place that a key is. -/
def place? : Val → Option Nat
  | .int n => if 0 < n then some n.toInt.toNat else none
  | _ => none

/-- Whether a key is in the row. -/
def inRow (l : Layout) (key : Val) : Bool := (place? key).any (· ≤ l.row)

/-- The longest row for some places that is more than half full. There are fewer than twice as many
    places in a row that is. -/
def bestRow (places : List Nat) : Nat :=
  let rows := (List.range (places.length.log2 + 2)).map (Nat.pow 2)
  ((rows.filter fun row => row / 2 < places.countP (· ≤ row)).getLast?).getD 0

/-- The room for some keys. -/
def roomFor (count : Nat) : Nat := if count = 0 then 0 else count.nextPowerOfTwo

/-- The best layout for some keys. -/
def best (keys : List Val) : Layout :=
  let row := bestRow (keys.filterMap place?)
  ⟨row, roomFor (keys.countP fun k => !inRow ⟨row, 0⟩ k)⟩

/-- The layout once a new key is there beside some others. -/
def grow (l : Layout) (others : List Val) (key : Val) : Layout :=
  if l.inRow key || others.countP (fun k => !l.inRow k) < l.room then l else best (key :: others)

/-- The layout once new keys are there beside some others, one after the other. -/
def growAll : Layout → List Val → List Val → Layout
  | l, _, [] => l
  | l, others, key :: rest => (l.grow others key).growAll (key :: others) rest

end Layout

/-- **A table**: entries in the order in which they were made, and its layout. -/
structure Table where
  entries : List (Val × Val)
  layout : Layout := {}
  deriving Repr, Inhabited

namespace Table

/-- A table without entries. -/
def empty : Table := ⟨[], {}⟩

/-- A table with some entries, which has been given no layout yet. -/
def ofEntries (entries : List (Val × Val)) : Table := ⟨entries, {}⟩

/-- The keys of a table. -/
def keys (t : Table) : List Val := t.entries.map Prod.fst

/-- The value at a key; `nil` when there is none. -/
def get (t : Table) (key : Val) : Val :=
  ((t.entries.find? fun e => e.1.equal key.toKey).map Prod.snd).getD .nil

/-! ## Setting -/

/-- Entries with a key set to a value. `nil` takes the entry away. -/
def setEntry (key v : Val) : List (Val × Val) → List (Val × Val)
  | [] => match v with
    | .nil => []
    | v => [(key, v)]
  | (k, w) :: rest =>
    if k.equal key then
      match v with
      | .nil => rest
      | v => (k, v) :: rest
    else (k, w) :: setEntry key v rest

/-- The layout once a key is set to a value. Only a new key needs room, and not for `nil`. -/
def layoutWith (t : Table) (key : Val) : Val → Layout
  | .nil => t.layout
  | _ => if t.keys.any (·.equal key) then t.layout else t.layout.grow t.keys key

/-- Why a value cannot be a key. -/
def badKey? : Val → Option String
  | .nil => some "table index is nil"
  | .float x => if x.isNaN then some "table index is NaN" else none
  | _ => none

/-- Set a key to a value. -/
def set (t : Table) (key v : Val) : Except String Table :=
  match badKey? key with
  | some message => .error message
  | none => .ok ⟨setEntry key.toKey v t.entries, t.layoutWith key.toKey v⟩

/-! ## Places -/

/-- The key of a place. -/
def placeKey (n : Nat) : Val := .int (Int64.ofNat n)

/-- Entries for the places `n`, `n + 1`, …; `nil` leaves a gap. -/
def placed : Nat → List Val → List (Val × Val)
  | _, [] => []
  | n, .nil :: rest => placed (n + 1) rest
  | n, v :: rest => (placeKey n, v) :: placed (n + 1) rest

/-- The table whose places are set to some values, one after the other. -/
def ofItems (vs : List Val) : Table :=
  let entries := placed 1 vs
  ⟨entries, Layout.growAll {} [] (entries.map Prod.fst)⟩

/-- Entries with the places `n`, `n + 1`, … set to some values. -/
def setPlaces : Nat → List Val → List (Val × Val) → List (Val × Val)
  | _, [], es => es
  | n, v :: vs, es => setPlaces (n + 1) vs (setEntry (placeKey n) v es)

/-- Set the places after `done` to some values. They stand in the row from then on. -/
def fill (t : Table) (done : Nat) (vs : List Val) : Table :=
  ⟨setPlaces (done + 1) vs t.entries, { t.layout with row := max t.layout.row (done + vs.length) }⟩

/-- The entries in the order in which they are visited: the row by its places, and then the others. -/
def inOrder (t : Table) : List (Val × Val) :=
  let place := fun (e : Val × Val) => (Layout.place? e.1).getD 0
  (t.entries.filter fun e => t.layout.inRow e.1).mergeSort (fun a b => place a ≤ place b) ++
    t.entries.filter fun e => !t.layout.inRow e.1

/-- The values of entries whose keys are `n`, `n + 1`, … in this order. -/
def valuesFrom? : Nat → List (Val × Val) → Option (List Val)
  | _, [] => some []
  | n, (k, v) :: rest =>
    if k.equal (placeKey n) then (valuesFrom? (n + 1) rest).map (v :: ·) else none

/-- The values at the places from 1 on, when these are all the keys. As many keys as there are entries
    are all the places up to their number, if none is another. -/
def items? (t : Table) : Option (List Val) :=
  match valuesFrom? 1 t.entries with
  | some vs => some vs
  | none =>
    let count := t.entries.length
    if t.keys.all (Layout.inRow ⟨count, 0⟩) then
      some ((List.range count).map fun i => t.get (placeKey (i + 1)))
    else none

/-! ## Length -/

/-- Whether a place is filled. -/
def isFilled (t : Table) (n : Nat) : Bool :=
  match t.get (placeKey n) with
  | .nil => false
  | _ => true

/-- The border that halving finds between a place that is filled, or 0, and a later one that is not. -/
def borderBetween (t : Table) (low high : Nat) : Nat :=
  if high - low ≤ 1 then low
  else
    let middle := (low + high) / 2
    if t.isFilled middle then borderBetween t middle high else borderBetween t low middle
  termination_by high - low

/-- The border that doubling and then halving finds from a place on that is filled. A place is doubled no
    more often than there are entries. -/
def borderFrom (t : Table) : Nat → Nat → Nat
  | 0, n => n
  | fuel + 1, n => if t.isFilled (2 * n) then borderFrom t fuel (2 * n) else t.borderBetween n (2 * n)

/-- **The length**: a border, in the row if the row ends with an empty place. -/
def length (t : Table) : Nat :=
  let row := t.layout.row
  if 0 < row && !t.isFilled row then
    if t.isFilled (row - 1) then row - 1 else t.borderBetween 0 row
  else if t.isFilled (row + 1) then t.borderFrom (t.entries.length + 1) (max row 1)
  else row

end Table

end Helios.Guest
