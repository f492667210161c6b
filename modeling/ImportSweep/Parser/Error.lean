import ImportSweep.Files.Path
import ImportSweep.Tree.Error

/-!
# Errors of parsing

The ways in which a source text yields no syntax tree, with their wording.
-/

namespace ImportSweep.Parser

open ImportSweep.Tree

/-- A syntax error of a stylesheet, as far as its place is known. -/
structure SyntaxFault where
  /-- What is wrong. -/
  message : String
  /-- The file. -/
  filename : Option String
  /-- The line. -/
  line : Option Nat
  /-- The column. -/
  column : Option Nat
  deriving DecidableEq, Repr

/-- The message of a syntax error, with its place. -/
def SyntaxFault.text (r : SyntaxFault) : String :=
  let file := r.filename.elim "" fun name => " in " ++ name
  let line := r.line.elim "" fun n => s!" on line {n}"
  let column := r.column.elim "" fun n => s!", column {n}"
  r.message ++ file ++ line ++ column

/-- Why the answer of the parsing service cannot be used. -/
inductive AnswerError where
  /-- It is not JSON. -/
  | notJson (fault : Json.Fault)
  /-- It holds neither a tree nor an error. -/
  | empty
  /-- Any other reason. -/
  | other (reason : String)

/-- The words for an unusable answer. -/
def AnswerError.textIn (w : Wording) : AnswerError → String
  | .notJson fault => w.fault fault
  | .empty => "response has neither a tree nor an error"
  | .other reason => reason

/-- Why the parsing service cannot be started. -/
inductive StartError where
  /-- Its file cannot be used. -/
  | unusable (cause : Files.FileError)
  /-- A text for it holds the character that ends texts for the system. -/
  | holdsNul
  deriving DecidableEq, Repr

/-- The wording of an error. -/
def StartError.message : StartError → String
  | .unusable cause => cause.message
  | .holdsNul => "nul byte found in provided data"

/-- Why a source text yields no tree. -/
inductive ParseError where
  /-- The source is no stylesheet. -/
  | badSource (report : SyntaxFault)
  /-- The parsing service cannot be started. -/
  | notStarted (cause : StartError)
  /-- The parsing service failed. -/
  | failed (status stderr : String)
  /-- The answer of the parsing service is not what it should be. -/
  | badAnswer (cause : AnswerError)
  /-- The tree of the answer cannot be decoded. -/
  | badTree (cause : TreeError)

/-- The message of an error. -/
def ParseError.messageIn (w : Wording) : ParseError → String
  | .badSource report => report.text
  | .notStarted cause => "Failed to run less.js adapter: " ++ cause.message
  | .failed status stderr => "less.js adapter exited with " ++ status ++ ": " ++ stderr
  | .badAnswer cause => "Unexpected less.js adapter output: " ++ cause.textIn w
  | .badTree cause => "Invalid syntax tree: " ++ cause.messageIn w

/-- The message of an error and those of its causes. -/
def ParseError.chain (w : Wording) (e : ParseError) : List String :=
  e.messageIn w ::
    match e with
    | .notStarted cause => [cause.message]
    | .badTree cause => cause.chain w
    | .badSource _ | .failed _ _ | .badAnswer _ => []

end ImportSweep.Parser
