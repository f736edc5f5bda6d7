import Helios.Text.Search

/-!
# Files

A directory of text files, seen from inside: paths are relative to it. A path is walked name by name,
and reading gives the text of the file where the walk ends or the first thing that stands in the way.
-/

namespace Helios

/-- Why a file cannot be read. -/
inductive ReadProblem
  | missing
  /-- A name follows something that is no directory. -/
  | notDirectory
  | isDirectory
  | nameTooLong
  /-- A path cannot have a null character in it. -/
  | nullInName
  /-- A problem that the system has words for. -/
  | other (message : String)
  deriving DecidableEq, Repr, Inhabited

namespace ReadProblem

/-- The wording of a problem. -/
def message : ReadProblem → String
  | missing => "No such file or directory (os error 2)"
  | notDirectory => "Not a directory (os error 20)"
  | isDirectory => "Is a directory (os error 21)"
  | nameTooLong => "File name too long (os error 36)"
  | nullInName => "file name contained an unexpected NUL byte"
  | other message => message

end ReadProblem

namespace Path

/-- The parts of a path between its slashes. -/
def parts (path : String) : List String := (Text.split ['/'] path.toList).map String.ofList

/-- The names that matter in a path: a part that is empty or a dot leads nowhere. A dot at the start
    counts, since it tells a file from a word that means something else. -/
def names (path : String) : List String :=
  match parts path with
  | [] => []
  | first :: rest => first :: rest.filter fun name => name ≠ "" ∧ name ≠ "."

/-- Whether a path means the standard input: it is a dash, in the directory itself. -/
def isStdin (path : String) : Bool := names path == ["-"]

end Path

/-- **The files of a directory**, by the names on the way to each. -/
structure Disk where
  entries : List (List String × String)
  deriving Repr

namespace Disk

/-- A disk that holds texts under their paths. -/
def ofFiles (files : List (String × String)) : Disk :=
  ⟨files.map fun f => ((Path.parts f.1).filter fun name => name ≠ "" ∧ name ≠ ".", f.2)⟩

/-- Where a walk along a path is. -/
inductive Place
  /-- A directory, by the names on the way to it. -/
  | directory (names : List String)
  | file (text : String)
  /-- A directory above this one, of which nothing is known. -/
  | outside
  deriving DecidableEq, Repr

/-- The text of a file by the names on the way to it. -/
def file? (d : Disk) (names : List String) : Option String :=
  (d.entries.find? fun e => e.1 == names).map Prod.snd

/-- Whether some file is somewhere below these names. -/
def isDirectory (d : Disk) (names : List String) : Bool :=
  d.entries.any fun e => names.isPrefixOf e.1 && names.length < e.1.length

/-- The longest name a file can have, in bytes. -/
def maxName : Nat := 255

/-- Walk on to the thing of this name. -/
def enter (d : Disk) : Place → String → Except ReadProblem Place
  | .file _, _ => .error .notDirectory
  | .outside, name =>
    if name = "" ∨ name = "." ∨ name = ".." then .ok .outside
    else if maxName < name.utf8ByteSize then .error .nameTooLong
    else .error .missing
  | .directory names, name =>
    if name = "" ∨ name = "." then .ok (.directory names)
    else if name = ".." then
      .ok (if names.isEmpty then .outside else .directory names.dropLast)
    else if maxName < name.utf8ByteSize then .error .nameTooLong
    else
      let names := names ++ [name]
      match d.file? names with
      | some text => .ok (.file text)
      | none => if d.isDirectory names then .ok (.directory names) else .error .missing

/-- Walk along a path. One that starts with a slash leads out of the directory, and an empty one
    nowhere. -/
def walk (d : Disk) (path : String) : Except ReadProblem Place :=
  match Path.parts path with
  | [] | [""] => .error .missing
  | "" :: rest => rest.foldlM d.enter .outside
  | parts => parts.foldlM d.enter (.directory [])

/-- **Read a file.** -/
def read (d : Disk) (path : String) : Except ReadProblem String :=
  if path.contains '\x00' then .error .nullInName
  else match d.walk path with
    | .ok (.file text) => .ok text
    | .ok _ => .error .isDirectory
    | .error p => .error p

end Disk

end Helios
