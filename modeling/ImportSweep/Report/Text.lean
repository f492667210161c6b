import ImportSweep.Report.Basic

/-!
# Reports as plain text

A block for each file with details, then a line that sums up.
-/

namespace ImportSweep

/-- Names as listed in a report. -/
def NameSet.listing (names : NameSet) : String :=
  if names.names.isEmpty then "(none)" else ", ".intercalate names.names

/-- The lines on the names of a file. -/
def Vocabulary.lines (names : Vocabulary) : List String :=
  ["  exportable: " ++ names.exported.listing, "  importable: " ++ names.used.listing]

/-- The block of a file. -/
def FileResult.lines (checkOnly : Bool) (r : FileResult) : List String :=
  let verb := if r.changed && !checkOnly then "removed" else "unused"
  [r.file]
    ++ (r.error.map ("  error: " ++ ·)).toList
    ++ r.unused.map (fun i => "  " ++ verb ++ s!" line {i.line}: " ++ i.path)
    ++ (r.names.map Vocabulary.lines).getD []

/-- The line that sums up. -/
def Report.summary (r : Report) : String :=
  let action := if r.checkOnly then "would change" else "changed"
  s!"{r.files.length} file(s), {r.changedFiles} {action}, {r.unusedTotal} unused import(s), "
    ++ s!"{r.failedFiles} failed"

/-- The lines of a report. -/
def Report.lines (r : Report) : List String :=
  let detailed := r.files.filter (·.isNotable)
  detailed.flatMap (FileResult.lines r.checkOnly)
    ++ (if detailed.isEmpty then [] else [""])
    ++ [r.summary]

/-- A report as plain text. -/
def Report.plainText (r : Report) : String :=
  String.join (r.lines.map (· ++ "\n"))

end ImportSweep
