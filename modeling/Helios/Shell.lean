import Helios.Files
import Helios.Invocation
import Helios.Program

/-!
# Answering command lines

What the program does for a command line, as a function of its surroundings: the text that it writes,
and why it stopped early, if it did. Nothing is read but the settings, the prelude, the program and
the standard input.
-/

namespace Helios

/-- **What surrounds a run of the program.** -/
structure Surroundings where
  /-- What reading a file gives. -/
  read : String → Except ReadProblem String
  stdin : Stdin
  /-- The settings file that the environment names. -/
  configVariable : Option String
  /-- Where the settings file of the user would be. -/
  userConfig : Option String
  platform : Platform

namespace Surroundings

/-- A directory that is also the home of the user. -/
def inHome (d : Disk) (stdin : String) (configVariable : Option String) (p : Platform) :
    Surroundings where
  read := d.read
  stdin := .text stdin.toList true
  configVariable := configVariable
  userConfig := some ".config/solar/solarrc"
  platform := p

/-- Whether there is a file at a path, one that may still be unreadable. -/
def isFile (s : Surroundings) (path : String) : Bool :=
  match s.read path with
  | .ok _ => true
  | .error (.other _) => true
  | .error _ => false

end Surroundings

/-- Why the program stopped early. -/
inductive Stop
  | refused (r : Refusal)
  | unreadable (path : String) (p : ReadProblem)
  | halted (h : Halt)

namespace Stop

/-- What is written to the standard error. -/
def message : Stop → String
  | refused .helpAsked | refused .versionAsked => ""
  | refused r => "error: " ++ r.message ++ "\n\n" ++ Refusal.usage
  | unreadable path p => "solar: cannot read " ++ path ++ ": " ++ p.message ++ "\n"
  | halted (.failed e) => "Oh noes! Solar threw an error: " ++ e.message ++ "\n"
  | halted .waiting => ""
  | halted .outOfFuel => "solar: out of fuel\n"

/-- The status the program ends with. -/
def exitCode : Stop → Nat
  | refused .helpAsked | refused .versionAsked => 0
  | refused _ => 2
  | _ => 1

end Stop

/-- **What a run of the program comes to.** -/
structure Report where
  output : String
  stop : Option Stop

namespace Report

/-- What is written to the standard error. -/
def errors (r : Report) : String := (r.stop.map Stop.message).getD ""

/-- The status the program ends with. -/
def exitCode (r : Report) : Nat := (r.stop.map Stop.exitCode).getD 0

/-- Whether a line is wanted that was not typed yet. -/
def isWaiting (r : Report) : Bool :=
  match r.stop with
  | some (.halted .waiting) => true
  | _ => false

/-- What is shown for a result, unless there is none. -/
def showing {α : Type} (show_ : α → String) : Except Stop α → Report
  | .ok a => ⟨show_ a, none⟩
  | .error e => ⟨"", some e⟩

end Report

namespace Shell

/-- The version of the program. -/
def version : String := "solar 1.0.3\n"

/-- Read a text: from a file, or everything that can be typed. -/
def readSource (read : String → Except ReadProblem String) (path : String) (stdin : Stdin) :
    Except Stop (String × Stdin) :=
  if Path.isStdin path then
    match stdin with
    | .off => .ok ("", .off)
    | .text _ false => .error (.halted .waiting)
    | .text cs true => .ok (String.ofList cs, .text [] true)
  else match read path with
    | .ok text => .ok (text, stdin)
    | .error p => .error (.unreadable path p)

/-- Run the programs of some files one after the other on the same machine. -/
def runFiles (read : String → Except ReadProblem String) (m : Machine) :
    List String → Except Stop Unit × Machine
  | [] => (.ok (), m)
  | path :: rest =>
    match readSource read path m.stdin with
    | .error e => (.error e, m)
    | .ok (source, stdin) =>
      match { m with stdin }.runSource source with
      | (.ok (), m) => runFiles read m rest
      | (.error h, m) => (.error (.halted h), m)

/-- Everything a machine wrote, in order. -/
def written (m : Machine) : String := String.join (m.output.toList.map Output.text)

/-- One line for a token. -/
def tokenLine (t : Token) : String :=
  toString t.pos.line ++ ":" ++ toString t.pos.column ++ "\t" ++ t.kind.describe ++ "\n"

/-- The lines of a statement. -/
def stmtLines (o : Outline) : String := o.spread ++ "\n"

end Shell

namespace Invocation

/-- The settings file to use: the one that is asked for, the one the environment names, or the first
    of the usual ones that is there. -/
def configPath? (inv : Invocation) (s : Surroundings) : Option String :=
  let asked := match inv with
    | run _ _ config => config
    | _ => none
  asked <|> s.configVariable <|> (s.userConfig.toList ++ [".solarrc"]).find? s.isFile

/-- The settings in force. A file that cannot be read sets nothing. -/
def settings (inv : Invocation) (s : Surroundings) : Settings :=
  match (inv.configPath? s).map s.read with
  | some (.ok text) => (Settings.read text).1
  | _ => .standard

/-- The files that are read as programs, in order. -/
def sources (inv : Invocation) (settings : Settings) : List String :=
  match inv with
  | run file noPrelude _ => (if noPrelude then [] else settings.prelude.toList) ++ [file]
  | check file => [file]
  | ast file => [file]
  | tokens file => [file]
  | version => []

/-- What is parsed of the file of a command that runs nothing. -/
def parsed {α : Type} (s : Surroundings) (file : String) (parse : String → Except Error α) :
    Except Stop α := do
  let (source, _) ← Shell.readSource s.read file s.stdin
  match parse source with
  | .ok a => .ok a
  | .error e => .error (.halted (.failed e))

/-- Do what is asked for. -/
def perform (inv : Invocation) (s : Surroundings) : Report :=
  let settings := inv.settings s
  match inv with
  | run .. =>
    let m := { Machine.initial s.platform with stdin := s.stdin, maxDepth := settings.maxDepth }
    let (r, m) := Shell.runFiles s.read m (inv.sources settings)
    ⟨Shell.written m, match r with
      | .ok () => none
      | .error e => some e⟩
  | check file => .showing (fun _ => file ++ ": ok\n") (parsed s file Stmt.parseProgram)
  | ast file =>
    .showing (fun program => String.join ((Stmt.blockOutlines program).map Shell.stmtLines))
      (parsed s file Stmt.parseProgram)
  | tokens file => .showing (fun ts => String.join (ts.map Shell.tokenLine)) (parsed s file Token.tokenize)
  | version => ⟨Shell.version, none⟩

end Invocation

namespace Shell

/-- **Answer a command line.** -/
def answer (s : Surroundings) (args : List String) : Report :=
  match Invocation.ofArgs args with
  | .ok inv => inv.perform s
  | .error .helpAsked => ⟨Refusal.usage, some (.refused .helpAsked)⟩
  | .error .versionAsked => ⟨version, some (.refused .versionAsked)⟩
  | .error r => ⟨"", some (.refused r)⟩

end Shell

end Helios
