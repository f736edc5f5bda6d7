import Helios.Outline

/-!
# Command lines

The arguments of the program name one of its commands and what that command works on. Arguments are
read from left to right. A value is only looked at when the argument after it is understood, so of two
faults the one that is found first decides.

## Contents
- `Invocation`: what the program is asked to do.
- `Refusal`: why a command line starts nothing.
- `Subcommand.readArgs`: the arguments after the name of a command.
- `Invocation.ofArgs`: whole command lines.
-/

namespace Helios

/-- **What the program is asked to do.** A file named `-` is the standard input. -/
inductive Invocation
  /-- Run a program, after the prelude unless that is left out. -/
  | run (file : String) (noPrelude : Bool) (config : Option String)
  /-- Parse a program. -/
  | check (file : String)
  /-- Show the statements of a program. -/
  | ast (file : String)
  /-- Show the tokens of a program. -/
  | tokens (file : String)
  | version
  deriving DecidableEq, Repr, Inhabited

namespace Invocation

/-- The shape of an invocation. -/
def outline : Invocation → Outline
  | run file noPrelude config =>
    .record "Run" [("file", .text file), ("no_prelude", .atom (if noPrelude then "true" else "false")),
      ("config", .option (config.map Outline.text))]
  | check file => .record "Check" [("file", .text file)]
  | ast file => .record "Ast" [("file", .text file)]
  | tokens file => .record "Tokens" [("file", .text file)]
  | version => .atom "Version"

end Invocation

/-- **Why a command line starts nothing:** it asks for a text instead, or something is wrong with it. -/
inductive Refusal
  | helpAsked
  | versionAsked
  | noCommand
  | missingFile
  | unknownArgument
  | unknownCommand
  /-- A value is missing or empty. -/
  | noValue
  /-- An option is given twice. -/
  | repeated
  /-- An option that has no value is given one. -/
  | needlessValue
  deriving DecidableEq, Repr, Inhabited

namespace Refusal

/-- How a command line is written. -/
def usage : String :=
  "Usage: solar <COMMAND>\n\nCommands:\n"
    ++ "  run [--no-prelude] [--config <PATH>] <FILE>\n"
    ++ "  check <FILE>\n"
    ++ "  ast <FILE>\n"
    ++ "  tokens <FILE>\n"
    ++ "  version\n"
    ++ "  help\n"

/-- What is wrong, in words. -/
def message : Refusal → String
  | helpAsked | versionAsked => ""
  | noCommand => "a command is needed"
  | missingFile => "a file is needed"
  | unknownArgument => "there is an argument that is not known"
  | unknownCommand => "there is no command by that name"
  | noValue => "an argument has no value"
  | repeated => "an option is given twice"
  | needlessValue => "an option that has no value is given one"

end Refusal

/-! ## Arguments -/

/-- The kinds of arguments, told apart by their first characters. -/
inductive Argument
  /-- Two dashes, after which every argument is a value. -/
  | endOfOptions
  /-- Two dashes and a name; an equals sign may join a value to it. -/
  | long (name : String) (value : Option String)
  /-- A dash and letters, each of which is an option. -/
  | short (letters : List Char)
  | value (text : String)
  deriving DecidableEq, Repr

namespace Argument

/-- The kind of an argument. A dash alone is a value. -/
def ofText (s : String) : Argument :=
  match s.toList with
  | ['-', '-'] => .endOfOptions
  | '-' :: '-' :: cs =>
    let name := String.ofList (cs.takeWhile (· ≠ '='))
    match cs.dropWhile (· ≠ '=') with
    | [] => .long name none
    | _ :: text => .long name (some (String.ofList text))
  | '-' :: c :: cs => .short (c :: cs)
  | _ => .value s

end Argument

/-! ## The arguments of a command -/

/-- **The commands**, by what may follow them. -/
inductive Subcommand
  | run
  | check
  | ast
  | tokens
  | version
  deriving DecidableEq, Repr, Inhabited

namespace Subcommand

/-- The name of a command. -/
def name : Subcommand → String
  | run => "run"
  | check => "check"
  | ast => "ast"
  | tokens => "tokens"
  | version => "version"

/-- Every command. -/
def all : List Subcommand := [run, check, ast, tokens, version]

/-- The command of a name. -/
def ofName? (s : String) : Option Subcommand := all.find? fun c => c.name == s

/-- Whether a file follows the command. -/
def takesFile : Subcommand → Bool
  | version => false
  | _ => true

/-- Whether the command has options of its own. -/
def takesOptions : Subcommand → Bool
  | run => true
  | _ => false

/-- A value that was seen and not looked at yet. -/
inductive Pending
  | nothing
  /-- The name of the option for a configuration, and its value if that was seen too. -/
  | config (value : Option String)
  | file (text : String)
  deriving DecidableEq, Repr

/-- The arguments of a command as far as they are read. -/
structure Args where
  file : Option String
  noPrelude : Bool
  config : Option String
  pending : Pending
  deriving DecidableEq, Repr

namespace Args

/-- No argument is read yet. -/
def none : Args := ⟨.none, false, .none, .nothing⟩

/-- Give the option for a configuration its value. It is an error to give it twice. -/
def setConfig (a : Args) (value : String) : Except Refusal Args :=
  if a.config.isSome then .error .repeated
  else if value.isEmpty then .error .noValue
  else .ok { a with config := some value }

/-- Look at the value that was seen last. -/
def settle (a : Args) : Except Refusal Args :=
  let cleared := { a with pending := .nothing }
  match a.pending with
  | .nothing => .ok a
  | .config .none => .error .noValue
  | .config (some value) => cleared.setConfig value
  | .file text => if text.isEmpty then .error .noValue else .ok { cleared with file := some text }

/-- Whether the value of an option is still to come. -/
def awaitsValue (a : Args) : Bool := a.pending == .config .none

/-- Whether a file was seen. -/
def hasFile (a : Args) : Bool :=
  match a.pending with
  | .file _ => true
  | _ => a.file.isSome

end Args

/-- Read a value that belongs to no option: it is the file, if one is still wanted. -/
def readValue (c : Subcommand) (a : Args) (text : String) : Except Refusal Args :=
  if c.takesFile ∧ ¬ a.hasFile then do
    let a ← a.settle
    pure { a with pending := .file text }
  else .error .unknownArgument

/-- Read an option with a long name. -/
def readLong (c : Subcommand) (a : Args) (name : String) (value : Option String) : Except Refusal Args :=
  if name = "help" then
    match value with
    | some _ => .error .needlessValue
    | none => do
      let _ ← a.settle
      .error .helpAsked
  else if c.takesOptions ∧ name = "no-prelude" then
    match value with
    | some _ => .error .needlessValue
    | none => do
      let a ← a.settle
      if a.noPrelude then .error .repeated else pure { a with noPrelude := true }
  else if c.takesOptions ∧ name = "config" then do
    let a ← a.settle
    match value with
    | some value => a.setConfig value
    | none => pure { a with pending := .config .none }
  else .error .unknownArgument

/-- Read one-letter options. Only the one that asks for help is known. -/
def readShort (a : Args) (letters : List Char) : Except Refusal Args :=
  if letters.head? = some 'h' then do
    let _ ← a.settle
    .error .helpAsked
  else .error .unknownArgument

/-- Read one argument where options are allowed. -/
def readArg (c : Subcommand) (a : Args) (arg : String) : Except Refusal Args :=
  match Argument.ofText arg with
  | .long name value => c.readLong a name value
  | .short letters => readShort a letters
  | _ => if a.awaitsValue then .ok { a with pending := .config (some arg) } else c.readValue a arg

/-- Read the arguments of a command; after the end of the options all of them are values. -/
def readArgs (c : Subcommand) (a : Args) : List String → Except Refusal Args
  | [] => a.settle
  | arg :: rest =>
    if Argument.ofText arg = .endOfOptions then do
      let a ← rest.foldlM c.readValue a
      a.settle
    else do
      let a ← c.readArg a arg
      c.readArgs a rest

/-- What a command with its arguments asks for. -/
def invocation (c : Subcommand) (a : Args) : Except Refusal Invocation :=
  match c, a.file with
  | version, _ => .ok .version
  | _, none => .error .missingFile
  | run, some file => .ok (.run file a.noPrelude a.config)
  | check, some file => .ok (.check file)
  | ast, some file => .ok (.ast file)
  | tokens, some file => .ok (.tokens file)

end Subcommand

/-! ## Whole command lines -/

namespace Invocation

/-- Whether a word names a command; asking for help is one too. -/
def isCommand (s : String) : Bool := s == "help" || (Subcommand.ofName? s).isSome

/-- The answer to a request for help on the command of these words, of which there may be one. -/
def help : List String → Refusal
  | [] => .helpAsked
  | [s] => if isCommand s then .helpAsked else .unknownCommand
  | _ => .unknownCommand

/-- Read one-letter options before any command; the first decides. -/
def ofShort (letters : List Char) : Refusal :=
  match letters.head? with
  | some 'h' => .helpAsked
  | some 'V' => .versionAsked
  | _ => .unknownArgument

/-- Read an option with a long name before any command. -/
def ofLong (name : String) (value : Option String) : Refusal :=
  let answer := if name = "help" then some Refusal.helpAsked
    else if name = "version" then some .versionAsked
    else none
  match answer, value with
  | none, _ => .unknownArgument
  | some _, some _ => .needlessValue
  | some r, none => r

/-- **Read a command line.** -/
def ofArgs : List String → Except Refusal Invocation
  | [] => .error .noCommand
  | arg :: rest =>
    match Subcommand.ofName? arg with
    | some c => do
      let a ← c.readArgs .none rest
      c.invocation a
    | none =>
      if arg = "help" then .error (help rest)
      else match Argument.ofText arg, rest with
        | .endOfOptions, [] => .error .noCommand
        | .endOfOptions, s :: _ => .error (if isCommand s then .unknownArgument else .unknownCommand)
        | .long name value, _ => .error (ofLong name value)
        | .short letters, _ => .error (ofShort letters)
        | .value _, _ => .error .unknownCommand

end Invocation

end Helios
