import Helios.Module
import Helios.Platform

/-!
# Import paths

A resolver answers what a path names: an object, nothing it knows of, or something that failed to load.
The machine asks its resolvers in turn.
-/

namespace Helios

/-- Why a resolver has no object for a path. -/
inductive ImportFailure
  /-- The resolver does not know the path; another one may. -/
  | notFound (path : String)
  | failed (reason : String)
  deriving DecidableEq, Repr, Inhabited

/-- The wording of a failure. -/
def ImportFailure.message : ImportFailure → String
  | notFound path => "no module named `" ++ path ++ "`"
  | failed reason => reason

/-- What a resolver says about a path. -/
abbrev Resolution := Except ImportFailure HostRef

/-- **A resolver**, with a state of its own. It is asked with the objects that were made so far, and may make more. -/
structure Resolver where
  oracle : Oracle (String × Hosts) (Resolution × Hosts)

namespace Resolver

/-- What a path names. -/
def resolve (r : Resolver) (path : String) (h : Hosts) : Resolution × Resolver × Hosts :=
  let ((resolution, h), oracle) := r.oracle.ask (path, h)
  (resolution, ⟨oracle⟩, h)

/-- Find a module of the language. -/
def resolveIn (cache : ModuleCache) (path : String) (h : Hosts) : (Resolution × Hosts) × ModuleCache :=
  match cache.resolve path h with
  | some (ref, cache, h) => ((.ok ref, h), cache)
  | none => ((.error (.notFound path), h), cache)

/-- The modules of the language under their own names. -/
def standard (cache : ModuleCache) : Resolver :=
  ⟨.ofSteps (fun cache (path, h) => resolveIn cache path h) cache []⟩

end Resolver

/-- What a prepared resolver does for a path. -/
inductive PreparedImport
  | fail (reason : String)
  /-- The path stands for a module of the language. -/
  | alias_ (name : String)
  deriving Repr, Inhabited

namespace Resolver

/-- Paths that were given beforehand. -/
def prepared (paths : Bindings PreparedImport) (cache : ModuleCache) : Resolver :=
  ⟨.ofSteps (fun cache (path, h) =>
    match paths.get? path with
    | none => ((.error (.notFound path), h), cache)
    | some (.fail reason) => ((.error (.failed reason), h), cache)
    | some (.alias_ name) => resolveIn cache name h) cache []⟩

/-- The reason given when no resolver knows a path. -/
def unknownReason : String := "no module by that name"

/-- Ask resolvers in turn; the first that knows the path decides. -/
def resolveFirst : List Resolver → String → Hosts → Except String HostRef × List Resolver × Hosts
  | [], _, h => (.error unknownReason, [], h)
  | r :: rest, path, h =>
    match r.resolve path h with
    | (.ok ref, r, h) => (.ok ref, r :: rest, h)
    | (.error (.failed reason), r, h) => (.error reason, r :: rest, h)
    | (.error (.notFound _), r, h) =>
      let (answer, rest, h) := resolveFirst rest path h
      (answer, r :: rest, h)

end Resolver

/-- The name that an imported path is bound to: its last part. -/
def leafName (path : String) : String :=
  String.ofList (path.toList.reverse.takeWhile (· ≠ '.')).reverse

end Helios
