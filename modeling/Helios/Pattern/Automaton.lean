import Helios.Pattern.Footprint
import Helios.Pattern.Parser
import Helios.Platform

/-!
# Automata

An expression is laid out as an automaton whose states consume a character, test the place, or branch.
The automaton is run on all states at once: at each place of the text the states that can be reached
without consuming anything are collected, and a character leads to the next ones. A match may start at
every place, so the first state joins in again and again.

`Pattern.compile` turns the text of a regular expression into an automaton or says what is wrong with
it, and `Pattern.regex` is a reader of regular expressions to run programs with. Programs work with any
other reader as well, and nothing that is proved about them depends on this one.
-/

namespace Helios.Pattern

/-- A state, with the numbers of the states that follow. -/
inductive State
  | consume (s : Charset) (next : Nat)
  | test (l : Look) (next : Nat)
  | branch (a b : Nat)
  | accept
  deriving Inhabited

/-- **An automaton** and the number of its first state. -/
structure Automaton where
  states : Array State
  first : Nat

namespace Automaton

/-- Building an automaton back to front: each state is added before those that lead to it. -/
abbrev Build := StateM (Array State)

/-- Add a state; its number. -/
def add (s : State) : Build Nat := fun states => (states.size, states.push s)

/-- Do something `n` times, each time in front of what was built before. -/
def times (build : Nat → Build Nat) : Nat → Nat → Build Nat
  | 0, next => pure next
  | n + 1, next => do
    let here ← build next
    times build n here

/-- Do something up to `n` times; each time it may stop instead. -/
def upTo (build : Nat → Build Nat) (stop : Nat) : Nat → Nat → Build Nat
  | 0, next => pure next
  | n + 1, next => do
    let here ← build next
    let choice ← add (.branch here stop)
    upTo build stop n choice

mutual

/-- Add the states of an expression in front of the state `next`; the number of the first of them. -/
def ofNode : Node → Nat → Build Nat
  | .empty, next => pure next
  | .set s, next => add (.consume s next)
  | .look l, next => add (.test l next)
  | .seq a b, next => do
    let later ← ofNode b next
    ofNode a later
  | .alts branches, next => ofBranches branches next
  | .atLeast min a, next => do
    let loop ← add (.branch next next)
    let body ← ofNode a loop
    modify fun states => states.setIfInBounds loop (.branch body next)
    times (ofNode a) min loop
  | .times min extra a, next => do
    let later ← upTo (ofNode a) next extra next
    times (ofNode a) min later
  | .group a, next => ofNode a next

/-- Add the states of a choice in front of the state `next`. Without branches nothing matches. -/
def ofBranches : List Node → Nat → Build Nat
  | [], next => add (.consume Charset.nothing next)
  | [a], next => ofNode a next
  | a :: rest, next => do
    let right ← ofBranches rest next
    let left ← ofNode a next
    add (.branch left right)

end

/-- The automaton of an expression. -/
def ofExpression (n : Node) : Automaton :=
  let (first, states) := (do
    let stop ← add .accept
    ofNode n stop : Build Nat).run #[]
  ⟨states, first⟩

/-! ## Running -/

/-- States to go on from, which states were seen at this place, and whether a match was found. -/
structure Front where
  seen : Array Bool
  /-- States that consume a character. -/
  ready : List (Charset × Nat)
  accepted : Bool

/-- Collect what can be reached between two characters from the states on a list. Every state is
    looked at once, and adds at most two to the list, which bounds the fuel. -/
def reach (a : Automaton) (before after : Option Char) : Nat → List Nat → Front → Front
  | 0, _, front => front
  | _, [], front => front
  | fuel + 1, n :: rest, front =>
    if front.seen.getD n true then reach a before after fuel rest front
    else
      let front := { front with seen := front.seen.setIfInBounds n true }
      match a.states.getD n .accept with
      | .accept => { front with accepted := true }
      | .consume s next =>
        reach a before after fuel rest { front with ready := (s, next) :: front.ready }
      | .test l next =>
        if l.holds before after then reach a before after fuel (next :: rest) front
        else reach a before after fuel rest front
      | .branch x y => reach a before after fuel (x :: y :: rest) front

/-- Whether a match ends in the rest of a text, going on from some states. -/
def run (a : Automaton) : Option Char → List Char → List Nat → Bool
  | before, rest, states =>
    let todo := states ++ [a.first]
    let front := a.reach before rest.head? (3 * a.states.size + todo.length + 1) todo
      ⟨Array.replicate a.states.size false, [], false⟩
    if front.accepted then true
    else match rest with
      | [] => false
      | c :: rest =>
        a.run (some c) rest (front.ready.filterMap fun (s, next) => if s.mem c then some next else none)

/-- **Whether a text contains a match.** -/
def isMatch (a : Automaton) (text : List Char) : Bool := a.run none text []

end Automaton

/-! ## Reading patterns -/

/-- **The automaton of a pattern.** -/
def compile (pattern : List Char) : Except Problem Automaton := do
  let ast ← Ast.parse pattern
  let (node, _) ← ast.meaning {}
  if !Footprint.fits node then throw .tooLarge
  pure (.ofExpression node)

/-- A reader of regular expressions. -/
def regex : Regex := fun pattern =>
  match compile pattern.toList with
  | .ok a => .ok fun text => a.isMatch text.toList
  | .error p => .error (p.message pattern.toList)

end Helios.Pattern
