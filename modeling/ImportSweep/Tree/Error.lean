import ImportSweep.Tree.DecodeError

/-!
# Errors of trees

What can be wrong with a syntax tree or with its offsets, with the wording.
-/

namespace ImportSweep.Tree

/-- Why a tree or a place in it cannot be used. -/
inductive TreeError where
  /-- The text of the tree cannot be decoded. -/
  | undecodable (cause : DecodeError)
  /-- There is no kind of that name. -/
  | unknownKind (name : String)
  /-- A node has not the shape that its kind has; `dump` shows it. -/
  | malformed (kind : Kind) (reason dump : String)
  /-- An import has no offset. -/
  | missingOffset (path : String)
  /-- An offset is no place in the text. -/
  | offsetOutOfRange (offset : Nat)

/-- How the reasons why a text is no tree are worded inside other messages. -/
structure Wording where
  /-- The words for a decoding error. -/
  decoding : DecodeError → String
  /-- The words for a fault of JSON text. -/
  fault : Json.Fault → String

/-- All reasons in full. -/
def Wording.full : Wording :=
  ⟨DecodeError.message, Json.Fault.message⟩

/-- The message of an error. -/
def TreeError.messageIn (w : Wording) : TreeError → String
  | .undecodable cause => "Failed to decode syntax tree: " ++ w.decoding cause
  | .unknownKind name => "Unknown node kind: \"" ++ name ++ "\""
  | .malformed kind reason dump =>
    "Malformed " ++ kind.name ++ " node: " ++ reason ++ "\n  " ++ dump
  | .missingOffset path => "Import of \"" ++ path ++ "\" has no source offset"
  | .offsetOutOfRange offset => s!"Source offset {offset} is past the end of the file"

/-- The message of an error in full. -/
def TreeError.message (e : TreeError) : String :=
  e.messageIn .full

/-- The message of an error and those of its causes. -/
def TreeError.chain (w : Wording) : TreeError → List String
  | .undecodable cause => [(TreeError.undecodable cause).messageIn w, w.decoding cause]
  | e => [e.messageIn w]

/-- The kind of that name. -/
def Kind.ofName (name : String) : Except TreeError Kind :=
  match Kind.ofName? name with
  | some kind => .ok kind
  | none => .error (.unknownKind name)

end ImportSweep.Tree
