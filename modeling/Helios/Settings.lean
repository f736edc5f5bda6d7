import Helios.Text.Lines
import Helios.Decimal.Read

/-!
# Settings

A settings file has one `key = value` to a line. Each line is read on its own: it sets something, says
nothing, or has a problem. A line with a problem sets nothing, so the lines after it are read as if it
were empty.

## Contents
- `Setting` and `Setting.ofLine`: what a single line says.
- `Settings` and `Settings.set`: the values in force, and one more setting on top of them.
- `Settings.read`: the whole file, with the problems and the numbers of their lines.
-/

namespace Helios

/-- **One setting.** -/
inductive Setting
  /-- What is written to the log. -/
  | log (filter : String)
  /-- A program that runs before every other. -/
  | prelude (path : String)
  /-- The deepest nesting of calls. -/
  | maxDepth (n : Nat)
  /-- Whether blocks of this language have an engine. -/
  | python (on : Bool)
  | lua (on : Bool)
  deriving DecidableEq, Repr, Inhabited

/-- What can be wrong with a line. -/
inductive SettingProblem
  | noEquals (line : String)
  | notPositive (value : String)
  | notSwitch (key value : String)
  | unknownKey (key : String)
  deriving DecidableEq, Repr, Inhabited

namespace SettingProblem

/-- The wording of a problem. -/
def message : SettingProblem → String
  | noEquals line => "expected `key = value`, got `" ++ line ++ "`"
  | notPositive value => "max_call_depth must be a positive integer, got `" ++ value ++ "`"
  | notSwitch key value => key ++ " must be on or off, got `" ++ value ++ "`"
  | unknownKey key => "unknown setting `" ++ key ++ "`"

end SettingProblem

namespace Setting

/-! ## Values -/

/-- A value without the double quotes around it, if it has both. -/
def unquote : List Char → List Char
  | '"' :: rest => if rest.getLast? = some '"' then rest.dropLast else '"' :: rest
  | cs => cs

/-- A switch: four words for each of its two positions, in letters of either case. -/
def readSwitch (value : List Char) : Option Bool :=
  let word := String.ofList (value.map Char.toLower)
  if ["on", "true", "yes", "1"].contains word then some true
  else if ["off", "false", "no", "0"].contains word then some false
  else none

/-- The largest number that fits into 64 bits. -/
def maxWord : Nat := 18446744073709551615

/-- A positive number that fits into 64 bits; a plus sign may stand before it. -/
def readPositive (value : List Char) : Option Nat :=
  let digits := match value with
    | '+' :: rest => rest
    | cs => cs
  (Decimal.readNat digits).filter fun n => 0 < n && n ≤ maxWord

/-- The setting that a switch makes, if the value is one. -/
def ofSwitch (key : String) (make : Bool → Setting) (value : List Char) :
    Except SettingProblem Setting :=
  match readSwitch value with
  | some on => .ok (make on)
  | none => .error (.notSwitch key (String.ofList value))

/-- The setting of a key and a value. -/
def ofPair (key : String) (value : List Char) : Except SettingProblem Setting :=
  match key with
  | "log" => .ok (.log (String.ofList value))
  | "prelude" => .ok (.prelude (String.ofList value))
  | "max_call_depth" =>
    match readPositive value with
    | some n => .ok (.maxDepth n)
    | none => .error (.notPositive (String.ofList value))
  | "python" => ofSwitch key .python value
  | "lua" => ofSwitch key .lua value
  | _ => .error (.unknownKey key)

/-! ## Lines -/

/-- A line that says nothing: it is blank or a comment. -/
def isSilent (line : List Char) : Bool :=
  match Text.trim line with
  | [] => true
  | c :: _ => c == '#' || c == ';'

/-- **What one line sets**, if it sets anything. Key and value are divided by the first equals sign. -/
def ofLine (line : List Char) : Except SettingProblem (Option Setting) :=
  if isSilent line then .ok none
  else
    let line := Text.trim line
    if line.contains '=' then
      let key := Text.trim (line.takeWhile (· ≠ '='))
      let value := Text.trim ((line.dropWhile (· ≠ '=')).drop 1)
      (ofPair (String.ofList key) (unquote value)).map some
    else .error (.noEquals (String.ofList line))

end Setting

/-- **The settings in force.** -/
structure Settings where
  log : Option String
  prelude : Option String
  maxDepth : Nat
  python : Bool
  lua : Bool
  deriving DecidableEq, Repr

namespace Settings

/-- What holds where nothing is set. -/
def standard : Settings := ⟨none, none, 200, true, true⟩

/-- One more setting, on top of the others. -/
def set (s : Settings) : Setting → Settings
  | .log filter => { s with log := some filter }
  | .prelude path => { s with prelude := some path }
  | .maxDepth n => { s with maxDepth := n }
  | .python on => { s with python := on }
  | .lua on => { s with lua := on }

/-- A problem and the number of the line that has it. -/
structure Problem where
  line : Nat
  problem : SettingProblem
  deriving DecidableEq, Repr

/-- A problem in words. -/
def Problem.message (p : Problem) : String := "line " ++ toString p.line ++ ": " ++ p.problem.message

/-- Read lines on top of settings, the first of them having the number `n`. -/
def readLines (n : Nat) (s : Settings) : List (List Char) → Settings × List Problem
  | [] => (s, [])
  | line :: rest =>
    match Setting.ofLine line with
    | .ok none => readLines (n + 1) s rest
    | .ok (some setting) => readLines (n + 1) (s.set setting) rest
    | .error p =>
      let (s, ps) := readLines (n + 1) s rest
      (s, ⟨n, p⟩ :: ps)

/-- **The settings of a file**, and everything that is wrong with it. -/
def read (text : String) : Settings × List Problem :=
  readLines 1 standard (Text.splitLines text.toList)

end Settings

end Helios
