import ImportSweep.Files.Store
import ImportSweep.Imports
import ImportSweep.Parser.Service
import ImportSweep.Source.Removal

/-!
# Pruning a file

Parses a stylesheet, finds its unused imports, and takes their lines out of the text. A file is
written only if its text changes, and an error leaves all files as they were.
-/

namespace ImportSweep

open ImportSweep.Tree ImportSweep.Names ImportSweep.Files ImportSweep.Parser ImportSweep.Source

/-- A file to be looked at. -/
structure Target where
  /-- The text to take in place of what the file holds. -/
  source : Option String
  /-- The path of the file. -/
  file : String
  /-- Further directories that are searched for imports. -/
  importPaths : List String

/-- An import that is not used. -/
structure Finding where
  /-- What is imported, as written. -/
  path : String
  /-- Where the statement begins. -/
  offset : Nat
  /-- The line of the statement, counted from one. -/
  line : Nat
  deriving DecidableEq, Repr

/-- What became of a file. -/
structure Swept where
  /-- The path of the file. -/
  file : String
  /-- The imports that were removed. -/
  removed : List Finding
  /-- The file was written. -/
  changed : Bool
  deriving DecidableEq, Repr

/-- The names of a file. -/
structure Vocabulary where
  /-- Names that it defines for those who import it. -/
  exported : NameSet
  /-- Names that it uses. -/
  used : NameSet

/-- Why a file cannot be pruned. -/
inductive SweepError where
  /-- The file cannot be read. -/
  | unreadable (path : String) (cause : FileError)
  /-- The file cannot be written. -/
  | unwritable (path : String) (cause : FileError)
  /-- The file cannot be parsed. -/
  | unparsed (path : String) (cause : ParseError)
  /-- Its tree is not what it should be. -/
  | badTree (cause : TreeError)

/-- The message of an error. -/
def SweepError.messageIn (w : Wording) : SweepError → String
  | .unreadable path cause => "Failed to read " ++ path ++ ": " ++ cause.message
  | .unwritable path cause => "Failed to write " ++ path ++ ": " ++ cause.message
  | .unparsed path cause => "Failed to parse less file \"" ++ path ++ "\": " ++ cause.messageIn w
  | .badTree cause => cause.messageIn w

/-- The message of an error and those of its causes. -/
def SweepError.chain (w : Wording) (e : SweepError) : List String :=
  match e with
  | .unreadable _ cause | .unwritable _ cause => [e.messageIn w, cause.message]
  | .unparsed _ cause => e.messageIn w :: cause.chain w
  | .badTree cause => cause.chain w

/-- An import as reported, with its line in the source. -/
def Finding.ofStatement (source : List Char) (statement : ImportStatement) :
    Except TreeError Finding :=
  match statement.index with
  | none => .error (.missingOffset statement.pathName)
  | some offset => do
    let position ← bytePosition source offset
    return ⟨statement.pathName, offset, lineOf source position⟩

/-- The source without the lines of imports. -/
def withoutImports (source : String) (unused : List Finding) : Except SweepError String :=
  (removeLines source (unused.map (·.offset))).mapError .badTree

/-- How files are parsed and which imports are candidates. -/
structure Sweep where
  /-- The parser. -/
  parser : SourceParser
  /-- Only imports for reference are candidates. -/
  referenceOnly : Bool

namespace Sweep

variable {σ : Type} [Store σ]

/-- The text of a file. -/
def textOf (files : σ) (path : String) : Except SweepError String :=
  (Store.read files path).mapError (.unreadable path)

/-- The text to be looked at. -/
def load (files : σ) (target : Target) : Except SweepError String :=
  match target.source with
  | some source => .ok source
  | none => textOf files target.file

/-- The tree of a source that stands for a file. -/
def parse (s : Sweep) (source file : String) (importPaths : List String) :
    Except SweepError Node :=
  (s.parser source ⟨some file, importPaths⟩).mapError (.unparsed file)

/-- The unused imports of a source. -/
def unusedIn (s : Sweep) (source : String) (target : Target) :
    Except SweepError (List Finding) := do
  let root ← s.parse source target.file target.importPaths
  let statements ← (unusedImports s.referenceOnly root).mapError .badTree
  (statements.mapM (Finding.ofStatement source.toList)).mapError .badTree

/-- The unused imports of a file, in the order of its text. -/
def unused (s : Sweep) (files : σ) (target : Target) :
    Except SweepError (List Finding) := do
  let source ← load files target
  s.unusedIn source target

/-- The text of a file without its unused imports. -/
def cleaned (s : Sweep) (files : σ) (target : Target) : Except SweepError String := do
  let source ← load files target
  let unused ← s.unusedIn source target
  withoutImports source unused

/-- Removes the unused imports of a file, and the state of the files after that. -/
def apply (s : Sweep) (files : σ) (target : Target) :
    Except SweepError Swept × σ :=
  let attempt : Except SweepError (String × List Finding × String) := do
    let source ← load files target
    let unused ← s.unusedIn source target
    let output ← withoutImports source unused
    return (source, unused, output)
  match attempt with
  | .error e => (.error e, files)
  | .ok (source, unused, output) =>
    if output = source then (.ok ⟨target.file, unused, false⟩, files)
    else
      match Store.write files target.file output with
      | .error cause => (.error (.unwritable target.file cause), files)
      | .ok files' => (.ok ⟨target.file, unused, true⟩, files')

/-- The names of a file. -/
def names (s : Sweep) (files : σ) (path : String) (importPaths : List String) :
    Except SweepError Vocabulary := do
  let source ← textOf files path
  let root ← s.parse source path importPaths
  let exported ← (exportedNames root).mapError .badTree
  let used ← (usedNames root).mapError .badTree
  return ⟨exported, used⟩

end Sweep

end ImportSweep
