import Helios.Pattern.Meaning
import Helios.Text.Encoded
import Std.Data.HashMap

/-!
# How large patterns are

A pattern must not be too large. What counts is the memory that it would take as an automaton over the
bytes of a text, read in either direction, with one state for every byte, condition and branch. Sets of
characters share states: forward, states that lead on alike are one; backward, paths share what they end
with. States are found again by a short table with one entry for each slot, so one that was displaced is
made anew.
-/

namespace Helios.Pattern

/-- The states of an automaton, and the bytes they take. -/
structure Footprint where
  states : Nat
  bytes : Nat
  deriving Repr, Inhabited

/-- A step in building an automaton. There is no result when it becomes too large. -/
abbrev Grow := StateT Footprint Option

namespace Footprint

/-- The bytes of a state that leads nowhere. -/
def stateSize : Nat := 32

/-- The bytes of a way on, for a range of bytes. -/
def rangeSize : Nat := 8

/-- The bytes of a way on without a byte. -/
def linkSize : Nat := 4

/-- Add a state with some bytes beside its own; its number. -/
def state (more : Nat) : Grow Nat := fun f =>
  let bytes := f.bytes + stateSize + more
  if sizeLimit < bytes then none else some (f.states, ⟨f.states + 1, bytes⟩)

/-- Add some states that lead to one other each. -/
def plainStates : Nat → Grow Unit
  | 0, f => some ((), f)
  | n + 1, f =>
    match state 0 f with
    | none => none
    | some (_, f) => plainStates n f

/-- Do the same again and again. -/
def again (act : Grow Unit) : Nat → Grow Unit
  | 0, f => some ((), f)
  | n + 1, f =>
    match act f with
    | none => none
    | some (_, f) => again act n f

/-- A hash of some numbers. -/
def hash (ns : List Nat) : UInt64 :=
  ns.foldl (fun h n => (h ^^^ n.toUInt64) * 1099511628211) 14695981039346656037

/-! ## Sets, forward -/

/-- A way on: the ends of a range of bytes, and the number of the state that follows. -/
structure Way where
  low : Nat
  high : Nat
  next : Nat
  deriving DecidableEq

/-- States that were made, by their slots. -/
abbrev Slots (κ : Type) := Std.HashMap Nat (κ × Nat)

/-- The slots for states by their ways on. -/
def waySlots : Nat := 10000

/-- The state with some ways on, made unless it is found. -/
def laid (ways : List Way) : StateT (Slots (List Way)) Grow Nat := do
  let slot := (hash (ways.flatMap fun w => [w.low, w.high, w.next])).toNat % waySlots
  match (← get)[slot]? with
  | some (known, id) =>
    if known = ways then pure id
    else
      let id ← (state (rangeSize * ways.length) : Grow Nat)
      modify (·.insert slot (ways, id))
      pure id
  | none =>
    let id ← (state (rangeSize * ways.length) : Grow Nat)
    modify (·.insert slot (ways, id))
    pure id

/-- A state that is still open: its ways on so far, and the range of the last, whose state is open too. -/
structure Open where
  ways : List Way
  last : Option (Nat × Nat)

/-- The ways on once the last one is known to lead to `next`. -/
def Open.closed (o : Open) (next : Nat) : List Way :=
  match o.last with
  | some (low, high) => o.ways ++ [⟨low, high, next⟩]
  | none => o.ways

/-- Close the open states that are deeper than `keep`, the deepest of them first. -/
def close (keep : Nat) : List Open → Nat → StateT (Slots (List Way)) Grow (List Open)
  | [], _ => pure []
  | o :: rest, next =>
    if keep < rest.length then do
      let id ← laid (o.closed next)
      close keep rest id
    else pure (⟨o.closed next, none⟩ :: rest)

/-- Go on with a sequence of ranges of bytes; what it has in common with the one before stays open. -/
def follow (target : Nat) (opens : List Open) (seq : List (Nat × Nat)) :
    StateT (Slots (List Way)) Grow (List Open) := do
  let common := ((opens.reverse.zip seq).takeWhile fun (o, r) => o.last == some r).length
  let opens ← close common opens target
  match opens, seq.drop common with
  | o :: rest, r :: rs => pure (rs.foldl (fun os r => ⟨[], some r⟩ :: os) ({ o with last := some r } :: rest))
  | _, _ => pure opens

/-- Go on with some sequences, which ascend. -/
def followAll (target : Nat) : List Open → List (List (Nat × Nat)) →
    StateT (Slots (List Way)) Grow (List Open)
  | opens, [] => close 0 opens target
  | opens, seq :: rest => do
    let opens ← follow target opens seq
    followAll target opens rest

/-- The states of a set, forward. -/
def forward (sequences : List (List (Nat × Nat))) : Grow Unit := do
  let target ← state 0
  let lay : StateT (Slots (List Way)) Grow Unit := do
    let opens ← followAll target [⟨[], none⟩] sequences
    match opens with
    | o :: _ =>
      let _ ← laid o.ways
    | [] => pure ()
  let _ ← lay.run ∅

/-! ## Sets, backward -/

/-- The slots for states by the one way on that they have. -/
def pathSlots : Nat := 1000

/-- The path back over a sequence of ranges, to the state `next`. -/
def path : Nat → List (Nat × Nat) → StateT (Slots Way) Grow Unit
  | _, [] => pure ()
  | next, (low, high) :: rest => do
    let way : Way := ⟨low, high, next⟩
    let slot := (hash [next, low, high]).toNat % pathSlots
    let known := match (← get)[slot]? with
      | some (w, id) => if w = way then some id else none
      | none => none
    match known with
    | some id => path id rest
    | none =>
      let id ← (state 0 : Grow Nat)
      modify (·.insert slot (way, id))
      path id rest

/-- The paths back over some sequences. -/
def paths (next : Nat) : List (List (Nat × Nat)) → StateT (Slots Way) Grow Unit
  | [] => pure ()
  | seq :: rest => do
    path next seq
    paths next rest

/-- The states of a set, backward. -/
def backward (sequences : List (List (Nat × Nat))) : Grow Unit := do
  let _ ← state (linkSize * sequences.length)
  let target ← state 0
  let _ ← (paths target sequences).run ∅

/-! ## Expressions -/

/-- The states of a set. A single character has one for each of its bytes. -/
def ofSet (back : Bool) (s : Charset) : Grow Unit :=
  match s.single? with
  | some c => plainStates c.utf8Size
  | none =>
    if s.isAscii then do
      let _ ← state 0
      let _ ← state (rangeSize * s.spans.size)
    else
      let sequences := s.spans.toList.flatMap fun (low, high) => Text.byteRanges low high
      if back then backward sequences else forward sequences

/-- A branch to `n` other states. -/
def branch (n : Nat) : Grow Unit := do
  let _ ← state (linkSize * n)

mutual

/-- The states of an expression. Groups take two, but not backward. -/
def ofNode (back : Bool) : Node → Grow Unit
  | .empty | .look _ => plainStates 1
  | .set s => ofSet back s
  | .seq a b =>
    if back then do
      ofNode back b
      ofNode back a
    else do
      ofNode back a
      ofNode back b
  | .alts branches => ofBranches back 0 branches.length branches
  | .atLeast 0 a =>
    if a.mayBeEmpty then do
      ofNode back a
      branch 2
      branch 2
      plainStates 1
    else do
      branch 2
      ofNode back a
  | .atLeast (n + 1) a => do
    again (ofNode back a) (n + 1)
    branch 2
  | .times 0 1 a => do
    branch 2
    ofNode back a
    plainStates 1
  | .times min extra a => do
    if min = 0 then plainStates 1 else again (ofNode back a) min
    if extra = 0 then pure ()
    else
      plainStates 1
      again (do
        branch 2
        ofNode back a) extra
  | .group a =>
    if back then ofNode back a
    else do
      plainStates 1
      ofNode back a
      plainStates 1

/-- The states of some branches, `done` of `count` being there already. Where they part and meet is laid
    out after the second. -/
def ofBranches (back : Bool) (done count : Nat) : List Node → Grow Unit
  | [] => pure ()
  | b :: rest => do
    ofNode back b
    if done = 1 then
      branch count
      plainStates 1
    ofBranches back (done + 1) count rest

end

/-- The states of a whole pattern. A match may start anywhere, unless it is bound to the end of the text
    where it starts. -/
def ofPattern (back : Bool) (n : Node) : Grow Unit := do
  if n.isBound back then plainStates 1
  else
    branch 2
    plainStates 1
    let _ ← state rangeSize
  ofNode back (.group n)
  plainStates 1

/-- **Whether a pattern is small enough** in both directions. -/
def fits (n : Node) : Bool :=
  ((ofPattern false n).run ⟨0, 0⟩).isSome && ((ofPattern true n).run ⟨0, 0⟩).isSome

end Footprint

end Helios.Pattern
