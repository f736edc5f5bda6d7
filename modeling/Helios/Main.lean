import Helios.Pattern.Automaton
import Helios.Shell
import Std.Time.DateTime.Timestamp

/-!
# The program

The outer layer: it fetches the files that an invocation names, lets `Shell.answer` answer, and writes
what comes of it. When a line is wanted that was not typed yet, one more is read and the answer is
asked for again. What was written before is the beginning of every later answer, so only the rest of it
is written.
-/

namespace Helios.Main

/-- The platform of a run that starts at some time. The program is answered for all at once, so its clocks stand
    still. -/
def platform (start : Std.Time.Timestamp) : Platform where
  regex := Pattern.regex
  wall _ := Float.ofInt start.toNanosecondsSinceUnixEpoch.val / 1e9
  elapsed _ := 0.0
  seed := .ofInt start.toNanosecondsSinceUnixEpoch.val
  seeds n := .ofInt (start.toNanosecondsSinceUnixEpoch.val + n)

/-- Files that were fetched, and what reading each of them gave. -/
abbrev Fetched := List (String × Except ReadProblem String)

/-- The problem behind a failure of the system. -/
def problemOf : IO.Error → ReadProblem
  | .noFileOrDirectory .. => .missing
  | .inappropriateType (some _) .. => .notDirectory
  | .inappropriateType none .. => .isDirectory
  | .invalidArgument _ 22 _ => .nullInName
  | .invalidArgument .. => .nameTooLong
  | e => .other (toString e)

/-- Read a file. -/
def fetch (path : String) : IO (String × Except ReadProblem String) := do
  try
    let text ← IO.FS.readFile path
    pure (path, .ok text)
  catch e => pure (path, .error (problemOf e))

/-- The surroundings in which the fetched files can be read, and no others. -/
def surroundings (files : Fetched) (typed : List Char) (ended : Bool) (named user : Option String)
    (p : Platform) : Surroundings where
  read := fun path => (files.lookup path).getD (.error .missing)
  stdin := .text typed ended
  configVariable := named
  userConfig := user
  platform := p

/-- Answer, and read one line more for as long as one is wanted; `shown` characters are written. -/
partial def converse (make : List Char → Bool → Surroundings) (args : List String) (typed : List Char)
    (ended : Bool) (shown : Nat) : IO UInt32 := do
  let report := Shell.answer (make typed ended) args
  let stdout ← IO.getStdout
  stdout.putStr (String.ofList (report.output.toList.drop shown))
  stdout.flush
  if report.isWaiting then
    let line ← (← IO.getStdin).getLine
    converse make args (typed ++ line.toList) line.isEmpty report.output.length
  else
    (← IO.getStderr).putStr report.errors
    return report.exitCode.toUInt32

/-- Where the settings file of the user would be. -/
def userConfig : IO (Option String) := do
  match ← IO.getEnv "XDG_CONFIG_HOME" with
  | some home => return some (home ++ "/solar/solarrc")
  | none => return (← IO.getEnv "HOME").map (· ++ "/.config/solar/solarrc")

/-- The files an invocation reads. -/
def fetchAll (inv : Invocation) (named user : Option String) : IO Fetched := do
  let asked := match inv with
    | .run _ _ config => config
    | _ => none
  let configs ← (asked.toList ++ named.toList ++ user.toList ++ [".solarrc"]).mapM fetch
  let settings := inv.settings (surroundings configs [] true named user .still)
  let programs ← ((inv.sources settings).filter fun path => !Path.isStdin path).mapM fetch
  return configs ++ programs

/-- Answer a command line. -/
def run (args : List String) : IO UInt32 := do
  let named ← IO.getEnv "SOLAR_CONFIG"
  let user ← userConfig
  let files ← match Invocation.ofArgs args with
    | .ok inv => fetchAll inv named user
    | .error _ => pure []
  let time ← Std.Time.Timestamp.now
  converse (fun typed ended => surroundings files typed ended named user (platform time)) args [] false 0

end Helios.Main

/-- Answer the command line of the program. -/
def main (args : List String) : IO UInt32 := Helios.Main.run args
