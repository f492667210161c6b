import ImportSweep.Json.Printer
import ImportSweep.Report.Text

/-!
# Reports as JSON

A report is a JSON object with a summary and the files. Members of a file that would be empty are
left out.
-/

namespace ImportSweep

open ImportSweep.Names

/-- A count or offset as JSON. -/
def Json.ofNat (n : Nat) : Json :=
  .number (.natural n)

/-- Names as JSON. -/
def NameSet.toJson (names : NameSet) : Json :=
  .array (names.names.map .text)

/-- An unused import as JSON. -/
def Finding.toJson (i : Finding) : Json :=
  .object [("path", .text i.path), ("offset", .ofNat i.offset), ("line", .ofNat i.line)]

/-- The names of a file as JSON. -/
def Vocabulary.toJson (names : Vocabulary) : Json :=
  .object [("exportable_names", names.exported.toJson), ("importable_names", names.used.toJson)]

/-- What is told about a file as JSON. -/
def FileResult.toJson (r : FileResult) : Json :=
  .object (
    [("file", .text r.file), ("changed", .flag r.changed)]
      ++ (if r.unused.isEmpty then [] else [("unused_imports", .array (r.unused.map (·.toJson)))])
      ++ (r.names.map fun names => ("names", names.toJson)).toList
      ++ (r.error.map fun error => ("error", Json.text error)).toList)

/-- The counts of a report as JSON. -/
def Report.summaryJson (r : Report) : Json :=
  .object [("files", .ofNat r.files.length), ("changed", .ofNat r.changedFiles),
    ("unused_imports", .ofNat r.unusedTotal), ("failed", .ofNat r.failedFiles),
    ("check_only", .flag r.checkOnly)]

/-- A report as JSON. -/
def Report.toJson (r : Report) : Json :=
  .object [("summary", r.summaryJson), ("files", .array (r.files.map (·.toJson)))]

/-- A report in a format. -/
def Report.render (r : Report) : ReportFormat → String
  | .text => r.plainText
  | .json => r.toJson.prettyText ++ "\n"

end ImportSweep
