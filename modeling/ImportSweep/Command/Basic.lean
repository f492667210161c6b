import ImportSweep.Report.Basic
import ImportSweep.Tree.Kind

/-!
# Commands

What the program can be told to do.
-/

namespace ImportSweep

open ImportSweep.Tree

/-- How the stylesheets below a directory are pruned. -/
structure PruneOptions where
  /-- The directory. -/
  dir : String
  /-- Further directories that are searched for imports. -/
  importDirs : List String
  /-- Only tell what would be removed. -/
  check : Bool
  /-- Go on with the next file when one fails. -/
  keepGoing : Bool
  /-- Remove only imports for reference. -/
  referenceOnly : Bool
  /-- The format of the report. -/
  format : ReportFormat
  deriving DecidableEq, Repr

/-- A command. -/
inductive Command where
  /-- Prunes the stylesheets below a directory. -/
  | prune (options : PruneOptions)
  /-- Lists the unused imports of a file. -/
  | unused (file : String) (importDirs : List String) (referenceOnly : Bool) (format : ReportFormat)
  /-- Lists the names that a file exports and uses. -/
  | names (file : String) (importDirs : List String) (format : ReportFormat)
  /-- Lists the nodes of a file, or those of a kind. -/
  | nodes (file : String) (importDirs : List String) (kind : Option Kind)
  /-- Tells the version. -/
  | version
  /-- Tells what the program is. -/
  | banner
  deriving DecidableEq, Repr

/-- A command with the parsing program that it uses. -/
structure CommandLine where
  /-- The parsing program. -/
  program : String
  /-- The less.js module that the parsing program should load. -/
  lessModule : Option String
  /-- The command. -/
  command : Command
  deriving DecidableEq, Repr

end ImportSweep
