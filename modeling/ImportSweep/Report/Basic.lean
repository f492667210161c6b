import ImportSweep.Sweep

/-!
# Reports

What a run found out about each file, and in which format that is told.
-/

namespace ImportSweep

/-- A format of reports. -/
inductive ReportFormat where
  /-- Plain text, a block for each file. -/
  | text
  /-- JSON. -/
  | json
  deriving DecidableEq, Repr

namespace ReportFormat

/-- The name of a format. -/
def name : ReportFormat → String
  | text => "text"
  | json => "json"

/-- The format of a name, in either case. -/
def ofName? (s : String) : Option ReportFormat :=
  match s.map Char.toLower with
  | "text" | "txt" => some text
  | "json" => some json
  | _ => none

/-- The message for a name that is no format. -/
def unknownMessage (s : String) : String :=
  "Unknown export format: '" ++ s ++ "'. Valid formats: text, json"

end ReportFormat

/-- What is told about a file. -/
structure FileResult where
  /-- The path of the file. -/
  file : String
  /-- Its unused imports. -/
  unused : List Finding
  /-- The file was written, or would be. -/
  changed : Bool
  /-- Its names, where these were asked for. -/
  names : Option Vocabulary
  /-- Why it could not be processed. -/
  error : Option String

namespace FileResult

/-- A file with its unused imports. -/
def ofUnused (file : String) (unused : List Finding) : FileResult :=
  ⟨file, unused, false, none, none⟩

/-- A file with its names. -/
def ofNames (file : String) (names : Vocabulary) : FileResult :=
  ⟨file, [], false, some names, none⟩

/-- A file that could not be processed. -/
def ofError (file message : String) : FileResult :=
  ⟨file, [], false, none, some message⟩

/-- A file that was pruned. -/
def ofOutcome (outcome : Swept) : FileResult :=
  ⟨outcome.file, outcome.removed, outcome.changed, none, none⟩

/-- There is more to tell than that the file was looked at. -/
def isNotable (r : FileResult) : Bool :=
  r.error.isSome || !r.unused.isEmpty || r.names.isSome

end FileResult

/-- What is told about a run. -/
structure Report where
  /-- The files in the order in which they were processed. -/
  files : List FileResult
  /-- Nothing was written. -/
  checkOnly : Bool

namespace Report

/-- How many files were changed, or would be. -/
def changedFiles (r : Report) : Nat :=
  r.files.countP (·.changed)

/-- How many imports are not used. -/
def unusedTotal (r : Report) : Nat :=
  r.files.foldl (fun total file => total + file.unused.length) 0

/-- How many files could not be processed. -/
def failedFiles (r : Report) : Nat :=
  r.files.countP (·.error.isSome)

/-- The exit code of a run that pruned files: it fails if a file failed, or if a check found
something to change. -/
def exitCode (r : Report) : Nat :=
  if r.failedFiles > 0 || (r.checkOnly && r.changedFiles > 0) then 1 else 0

end Report

end ImportSweep
