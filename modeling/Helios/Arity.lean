/-!
# Argument counts

A function accepts a number of arguments between two bounds, or from one bound on.
-/

namespace Helios

/-- **The accepted argument counts** of a function; without `max` there is no upper bound. -/
structure Arity where
  min : Nat
  max : Option Nat
  deriving DecidableEq, Repr, Inhabited

namespace Arity

/-- Exactly `n` arguments. -/
def exactly (n : Nat) : Arity := ⟨n, some n⟩

/-- From `min` to `max` arguments. -/
def between (min max : Nat) : Arity := ⟨min, some max⟩

/-- `min` arguments or more. -/
def atLeast (min : Nat) : Arity := ⟨min, none⟩

/-- Whether a call with `n` arguments is accepted. -/
def accepts (a : Arity) (n : Nat) : Bool :=
  a.min ≤ n && match a.max with
    | some max => n ≤ max
    | none => true

/-- The accepted counts in words. -/
def describe (a : Arity) : String :=
  match a.max with
  | some max =>
    if max = a.min then toString max else toString a.min ++ " to " ++ toString max
  | none => "at least " ++ toString a.min

@[simp] theorem accepts_exactly (n k : Nat) : (exactly n).accepts k = true ↔ k = n := by
  unfold accepts exactly; simp; omega

@[simp] theorem accepts_atLeast (n k : Nat) : (atLeast n).accepts k = true ↔ n ≤ k := by
  unfold accepts atLeast; simp

end Arity

end Helios
