/-!
# Paths

A path is a text of names divided by slashes. Before a path is looked up its text is checked:
`checkPath` refuses what no file system call takes.
-/

namespace ImportSweep.Files

/-- Why a path cannot be used. -/
inductive FileError where
  /-- There is nothing of that name. -/
  | notFound
  /-- The file may not be used so. -/
  | notPermitted
  /-- Something on the way is no directory. -/
  | notADirectory
  /-- A directory is not a file. -/
  | isADirectory
  /-- Links lead to more links than are followed. -/
  | tooManyLinks
  /-- The path, or a name in it, is longer than allowed. -/
  | nameTooLong
  /-- The path holds the character that ends texts for the system. -/
  | holdsNul
  /-- The file holds no text. -/
  | notText
  deriving DecidableEq, Repr

/-- The wording of an error. -/
def FileError.message : FileError → String
  | .notFound => "No such file or directory (os error 2)"
  | .notPermitted => "Permission denied (os error 13)"
  | .notADirectory => "Not a directory (os error 20)"
  | .isADirectory => "Is a directory (os error 21)"
  | .tooManyLinks => "Too many levels of symbolic links (os error 40)"
  | .nameTooLong => "File name too long (os error 36)"
  | .holdsNul => "file name contained an unexpected NUL byte"
  | .notText => "stream did not contain valid UTF-8"

/-- Splits a text at slashes; `part` holds the current part, last character first. -/
def splitSlashes (part : List Char) : List Char → List String
  | [] => [String.ofList part.reverse]
  | c :: rest =>
    if c = '/' then String.ofList part.reverse :: splitSlashes [] rest
    else splitSlashes (c :: part) rest

/-- The steps of a path: names and steps up. -/
def steps (path : String) : List String :=
  (splitSlashes [] path.toList).filter fun part => part ≠ "" && part ≠ "."

/-- The path begins at the top of the machine, which is out of sight. -/
def isAbsolute (path : String) : Bool :=
  path.toList.head? = some '/'

/-- The path ends in a slash. -/
def endsInSlash (path : String) : Bool :=
  path.toList.getLast? = some '/'

/-- The path can only mean a directory, because its last part is empty or a dot. -/
def meansDirectory (path : String) : Bool :=
  match (splitSlashes [] path.toList).getLast? with
  | some part => part = "" || part = "."
  | none => false

/-- The steps that a walk along a path makes. A path that can only mean a directory ends in a dot,
a step that stays in the directory and is possible in a directory only. -/
def walkSteps (path : String) : List String :=
  steps path ++ if meansDirectory path then ["."] else []

/-- The size in bytes from which on a path is too long. -/
def pathLimit : Nat := 4096

/-- The size in bytes of the longest names. -/
def nameLimit : Nat := 255

/-- The path is too long to be looked up, whatever its names are. -/
def isTooLong (path : String) : Bool :=
  pathLimit ≤ path.utf8ByteSize

/-- Refuses a path that cannot be looked up. -/
def checkPath (path : String) : Except FileError Unit :=
  if path.toList.contains '\x00' then .error .holdsNul
  else if path = "" then .error .notFound
  else if isTooLong path then .error .nameTooLong
  else .ok ()

end ImportSweep.Files
