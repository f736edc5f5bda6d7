/-!
# The platform

What a program finds around it and cannot choose: the clocks, the seeds of generators that nobody seeded, and the reader
of regular expressions. Clocks are read one time after the other, and nothing is known of what they show.

Engines, resolvers and frontends have states of their own, which nobody else sees. What such a thing answers may depend on
all that it was asked before, and that is all that is known of it here (`Oracle`).
-/

namespace Helios

/-- **A reader of regular expressions.** It refuses a pattern, for a reason, or tells in which texts the pattern occurs. -/
abbrev Regex := String → Except String (String → Bool)

/-- What a platform shows at one moment. -/
structure Reading where
  regex : Regex
  /-- The clock on the wall, in seconds. -/
  wall : Float
  /-- A stopwatch, in seconds. -/
  elapsed : Float

/-- **What surrounds a program**: what the clocks show from reading to reading, the seed of the generator of the machine,
    and the seeds of the generators of module objects. -/
structure Platform where
  regex : Regex
  wall : Nat → Float
  elapsed : Nat → Float
  seed : UInt64
  seeds : Nat → UInt64

namespace Platform

/-- What is shown at the `n`-th reading. -/
def reading (p : Platform) (n : Nat) : Reading := ⟨p.regex, p.wall n, p.elapsed n⟩

/-- Clocks that stand still, equal seeds, and no pattern that is understood. -/
def still : Platform where
  regex _ := .error "unsupported"
  wall _ := 0.0
  elapsed _ := 0.0
  seed := 1
  seeds _ := 1

end Platform

/-! ## Oracles -/

/-- **Something with a state of its own**, seen from outside: what it answers to a question after earlier ones, and the
    questions that it was asked so far, the first one first. -/
structure Oracle (α β : Type) where
  answer : List α → α → β
  asked : List α

namespace Oracle

variable {α β σ : Type}

/-- Ask a question. -/
def ask (o : Oracle α β) (a : α) : β × Oracle α β := (o.answer o.asked a, { o with asked := o.asked ++ [a] })

/-- The state that is left by some questions. -/
def stateAfter (step : σ → α → β × σ) (s : σ) (asked : List α) : σ := asked.foldl (fun s a => (step s a).2) s

/-- What starts in a state and answers step by step, after some questions. -/
def ofSteps (step : σ → α → β × σ) (s : σ) (asked : List α) : Oracle α β where
  answer earlier a := (step (stateAfter step s earlier) a).1
  asked := asked

end Oracle

end Helios
