import ImportSweep.Parser.Error
import ImportSweep.Tree.Decode

/-!
# Answers of the parsing service

An answer is a JSON object with a tree or a syntax error. Both are checked as they are met in the
text, and unknown members are passed over. Arrays of the members' values in order are accepted
too.
-/

namespace ImportSweep.Parser

open ImportSweep.Tree
open ImportSweep.Json (Draft Key Fault Break)

/-- What an answer holds. -/
structure Answer where
  /-- The tree. -/
  root : Option Node
  /-- The syntax error. -/
  error : Option SyntaxFault

/-- A field of a record: nothing before it is met in the text, then its value. -/
abbrev Met (α : Type) := Option α

/-- Takes a field that must not have been met before. -/
def meet {α : Type} (name : String) (before : Met α) (value : Except DecodeError α) :
    Except DecodeError (Met α) :=
  match before with
  | some _ => .error (.duplicate name)
  | none => some <$> value

/-- Reads the members of an object in turn. -/
def readObject {σ : Type} (step : σ → String → Draft → Except DecodeError σ) :
    σ → List (Key × Draft) → Option Break → Except DecodeError σ
  | state, [], none => .ok state
  | _, [], some why => .error (.malformed why.reading)
  | state, (key, draft) :: rest, ending => do
    let name ← orMalformed key
    let state ← step state name draft
    readObject step state rest ending

/-- Why an array that stands for a record of known length breaks off after its last item. -/
def arrayEnd (why : Break) : Fault :=
  match why.reading with
  | .endInArray => .endInArray
  | .trailingComma => .trailingComma
  | _ => .trailingCharacters

/-- Reads the items of an array in turn, one for each of the readers. A missing item leaves the
state as it is. -/
def readArray {σ : Type} : List (σ → Draft → Except DecodeError σ) → σ → List Draft →
    Option Break → Except DecodeError σ
  | [], state, [], none => .ok state
  | [], _, [], some why => .error (.malformed (arrayEnd why))
  | [], _, _ :: _, _ => .error (.malformed .trailingCharacters)
  | _ :: _, state, [], none => .ok state
  | _ :: _, _, [], some why => .error (.malformed why.reading)
  | reader :: readers, state, item :: rest, ending => do
    let state ← reader state item
    readArray readers state rest ending

/-- Something that may be absent; `null` stands for that. -/
def optionalDraft {α : Type} (reader : Draft → Except DecodeError α) :
    Draft → Except DecodeError (Option α)
  | .null => .ok none
  | draft => some <$> reader draft

/-- Reads a text. -/
def textOfDraft (draft : Draft) : Except DecodeError String := do
  match ← orMalformed (Found.ofDraft draft) with
  | .text s => return s
  | found => .error (.wrongType found .text)

/-- The fields of a reported syntax error that were met. -/
structure FaultFields where
  /-- What is wrong. -/
  message : Met String := none
  /-- The file. -/
  filename : Met (Option String) := none
  /-- The line. -/
  line : Met (Option Nat) := none
  /-- The column. -/
  column : Met (Option Nat) := none

namespace FaultFields

/-- Takes the message. -/
def takeMessage (f : FaultFields) (draft : Draft) : Except DecodeError FaultFields := do
  return { f with message := ← meet "message" f.message (textOfDraft draft) }

/-- Takes the file name. -/
def takeFilename (f : FaultFields) (draft : Draft) : Except DecodeError FaultFields := do
  return { f with filename := ← meet "filename" f.filename (optionalDraft textOfDraft draft) }

/-- Takes the line. -/
def takeLine (f : FaultFields) (draft : Draft) : Except DecodeError FaultFields := do
  return { f with line := ← meet "line" f.line (offsetOfDraft draft) }

/-- Takes the column. -/
def takeColumn (f : FaultFields) (draft : Draft) : Except DecodeError FaultFields := do
  return { f with column := ← meet "column" f.column (offsetOfDraft draft) }

/-- Takes a member. -/
def take (f : FaultFields) (name : String) (draft : Draft) : Except DecodeError FaultFields :=
  match name with
  | "message" => f.takeMessage draft
  | "filename" => f.takeFilename draft
  | "line" => f.takeLine draft
  | "column" => f.takeColumn draft
  | _ => do
    orMalformed draft.pass
    return f

/-- The report with these fields, unless the message is missing. -/
def report (f : FaultFields) (missing : DecodeError) : Except DecodeError SyntaxFault :=
  match f.message with
  | none => .error missing
  | some message => .ok ⟨message, f.filename.join, f.line.join, f.column.join⟩

end FaultFields

/-- The syntax error that a draft reports. -/
def SyntaxFault.ofDraft : Draft → Except DecodeError SyntaxFault
  | .object members ending => do
    let fields ← readObject FaultFields.take {} members ending
    fields.report (.missing "message")
  | .array items ending => do
    if items.isEmpty && ending.isNone then .error (.wrongLength 0 .reportItems)
    let fields ← readArray [FaultFields.takeMessage, FaultFields.takeFilename,
      FaultFields.takeLine, FaultFields.takeColumn] {} items ending
    fields.report (.wrongLength 0 .reportItems)
  | draft => do
    let found ← orMalformed (Found.ofDraft draft)
    .error (.wrongType found .report)

/-- The fields of an answer that were met. -/
structure AnswerFields where
  /-- The tree. -/
  root : Met (Option Node) := none
  /-- The syntax error. -/
  error : Met (Option SyntaxFault) := none

namespace AnswerFields

/-- Takes the tree. -/
def takeRoot (levels : Nat) (f : AnswerFields) (draft : Draft) :
    Except DecodeError AnswerFields := do
  return { f with root := ← meet "root" f.root (optionalDraft (Node.ofDraft levels) draft) }

/-- Takes the syntax error. -/
def takeError (f : AnswerFields) (draft : Draft) : Except DecodeError AnswerFields := do
  return { f with error := ← meet "error" f.error (optionalDraft SyntaxFault.ofDraft draft) }

/-- Takes a member. -/
def take (levels : Nat) (f : AnswerFields) (name : String) (draft : Draft) :
    Except DecodeError AnswerFields :=
  match name with
  | "root" => f.takeRoot levels draft
  | "error" => f.takeError draft
  | _ => do
    orMalformed draft.pass
    return f

/-- The answer with these fields. -/
def response (f : AnswerFields) : Answer :=
  ⟨f.root.join, f.error.join⟩

end AnswerFields

/-- The answer that a draft is; `levels` is how many arrays and objects may stand inside it. -/
def Answer.ofDraft (levels : Nat) : Draft → Except DecodeError Answer
  | .object members ending => do
    return (← readObject (AnswerFields.take levels) {} members ending).response
  | .array items ending => do
    let readers := [AnswerFields.takeRoot levels, AnswerFields.takeError]
    return (← readArray readers {} items ending).response
  | draft => do
    let found ← orMalformed (Found.ofDraft draft)
    .error (.wrongType found .response)

/-- Reads an answer. -/
def Answer.read (symbols : List Json.Symbol) : Except DecodeError Answer := do
  let (draft, trailing) := Draft.read symbols
  let response ← Answer.ofDraft (Json.nestingLimit - 1) draft
  if trailing then .error (.malformed .trailingCharacters) else return response

/-- The tree of an answer, or the reason why there is none. A reported syntax error wins over a
tree. -/
def readAnswer (symbols : List Json.Symbol) : Except ParseError Node :=
  match Answer.read symbols with
  | .error (.malformed fault) => .error (.badAnswer (.notJson fault))
  | .error cause => .error (.badTree (.undecodable cause))
  | .ok response =>
    match response.error, response.root with
    | some report, _ => .error (.badSource report)
    | none, some root => .ok root
    | none, none => .error (.badAnswer .empty)

end ImportSweep.Parser
