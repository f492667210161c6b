import ImportSweep.Json.Printer

/-!
# Requests to the parsing service

What is asked of the parsing service, and the JSON text that it is asked in.
-/

namespace ImportSweep.Parser

/-- Under which name a source is parsed and where its imports are looked for. -/
structure ParseContext where
  /-- The name; relative imports are resolved against its directory. -/
  filename : Option String
  /-- Further directories that are searched for imports. -/
  paths : List String
  deriving DecidableEq, Repr

/-- A request as a JSON value. -/
def requestJson (source : String) (options : ParseContext) : Json :=
  .object [("source", .text source), ("filename", options.filename.elim .null .text),
    ("paths", .array (options.paths.map .text))]

/-- The text of a request. -/
def requestText (source : String) (options : ParseContext) : String :=
  (requestJson source options).compactText

end ImportSweep.Parser
