/-!
# Random numbers

A generator of 64-bit words by shifts and exclusive ors. Its state is never zero, because zero would
stay zero.
-/

namespace Helios

/-- **The state of a random generator.** -/
structure Random where
  state : UInt64
  deriving DecidableEq, Repr, Inhabited

namespace Random

/-- The generator for a seed; zero stands for another seed. -/
def seeded (seed : UInt64) : Random := ⟨if seed = 0 then 0xdeadbeef else seed⟩

/-- One step of the state. -/
def mix (s : UInt64) : UInt64 :=
  let s := s ^^^ (s <<< 13)
  let s := s ^^^ (s >>> 7)
  s ^^^ (s <<< 17)

/-- The next word. -/
def next (g : Random) : UInt64 × Random :=
  let s := mix g.state
  (s, ⟨s⟩)

/-- A float between zero, included, and one. -/
def nextFloat (g : Random) : Float × Random :=
  let (w, g) := g.next
  ((w >>> 11).toFloat / 9007199254740992.0, g)

/-- An integer between `low` and `high`, both included, for `low ≤ high`. -/
def nextInt (g : Random) (low high : Int) : Int × Random :=
  let (w, g) := g.next
  let span := (high - low + 1).toNat
  (low + (w.toNat % span : Nat), g)

end Random

end Helios
