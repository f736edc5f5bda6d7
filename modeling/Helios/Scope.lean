import Helios.Bindings
import Helios.Value

/-!
# Scopes

Variables live in frames, and frames live in an arena where each has a number. Frame 0 is the global
one; every other frame names a parent, in which names it does not bind are looked up. A frame that is
left goes on a list of free numbers, and the next frame that is entered takes the last of them.
-/

namespace Helios

/-- Name and value of every variable in view. -/
abbrev Namespace := Bindings Value

/-- The number of a frame. -/
abbrev ScopeId := Nat

/-- One frame: its variables and the frame around it. -/
structure Frame where
  vars : Bindings Value
  parent : Option ScopeId
  deriving Repr, Inhabited

/-- **The arena of frames**, the free numbers, last freed first, and the current frame. -/
structure Scopes where
  frames : Array (Option Frame)
  free : List ScopeId
  current : ScopeId
  deriving Repr

namespace Scopes

/-- The number of the global frame. -/
def global : ScopeId := 0

/-- Only the global frame, without variables. -/
def initial : Scopes := ⟨#[some ⟨.empty, none⟩], [], global⟩

instance : Inhabited Scopes := ⟨initial⟩

/-- A live frame. -/
def frame? (s : Scopes) (id : ScopeId) : Option Frame := (s.frames[id]?).join

/-- Enter a new, empty frame with the given parent. The frame that was current is returned, to be
    handed to `leave`. -/
def enter (s : Scopes) (parent : ScopeId) : ScopeId × Scopes :=
  let frame : Option Frame := some ⟨.empty, some parent⟩
  match s.free with
  | id :: free => (s.current, ⟨s.frames.setIfInBounds id frame, free, id⟩)
  | [] => (s.current, ⟨s.frames.push frame, [], s.frames.size⟩)

/-- Enter a frame inside the current one. -/
def enterBlock (s : Scopes) : ScopeId × Scopes := s.enter s.current

/-- Enter the frame of a call; only the global frame is around it. -/
def enterCall (s : Scopes) : ScopeId × Scopes := s.enter global

/-- Give up the current frame, unless it is the global one, and go back to `saved`. -/
def leave (s : Scopes) (saved : ScopeId) : Scopes :=
  if s.current = global then { s with current := saved }
  else ⟨s.frames.setIfInBounds s.current none, s.current :: s.free, saved⟩

/-- The frames in view from `id` outward, with their numbers; `fuel` bounds how many there are. -/
def chainFrom (s : Scopes) : Nat → ScopeId → List (ScopeId × Frame)
  | 0, _ => []
  | fuel + 1, id =>
    match s.frame? id with
    | none => []
    | some f =>
      match f.parent with
      | none => [(id, f)]
      | some parent => (id, f) :: chainFrom s fuel parent

/-- The frames in view, the innermost first. No chain is longer than the arena. -/
def chain (s : Scopes) : List (ScopeId × Frame) := s.chainFrom s.frames.size s.current

/-- The innermost frame in view that binds a name. -/
def find? (s : Scopes) (name : String) : Option ScopeId :=
  (s.chain.find? fun p => p.2.vars.contains name).map Prod.fst

/-- The value of a name in view. -/
def get? (s : Scopes) (name : String) : Option Value :=
  s.chain.findSome? fun p => p.2.vars.get? name

/-- Whether a name is bound in view. -/
def contains (s : Scopes) (name : String) : Bool := (s.find? name).isSome

/-- Bind a name in a frame, if the frame is live. -/
def bindIn (s : Scopes) (id : ScopeId) (name : String) (v : Value) : Scopes :=
  match s.frame? id with
  | some f => { s with frames := s.frames.setIfInBounds id (some { f with vars := f.vars.insert name v }) }
  | none => s

/-- Rebind a name where it is bound in view, or else bind it in the current frame. -/
def assign (s : Scopes) (name : String) (v : Value) : Scopes :=
  s.bindIn ((s.find? name).getD s.current) name v

/-- Bind a name in the current frame. -/
def define (s : Scopes) (name : String) (v : Value) : Scopes := s.bindIn s.current name v

/-- Bind a name in the global frame. -/
def defineGlobal (s : Scopes) (name : String) (v : Value) : Scopes := s.bindIn global name v

/-- Every binding in view; inner frames hide outer ones. -/
def visible (s : Scopes) : Namespace :=
  s.chain.foldr (fun p outer => outer.override p.2.vars) .empty

/-- The number of live frames. -/
def live (s : Scopes) : Nat := s.frames.size - s.free.length

end Scopes

end Helios
