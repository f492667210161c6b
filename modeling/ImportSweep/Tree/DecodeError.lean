import ImportSweep.Json.Basic
import ImportSweep.Text.Quoted
import ImportSweep.Tree.Kind

/-!
# Errors of decoding

The reasons why a JSON text is not a syntax tree, with their wording.
-/

namespace ImportSweep.Tree

/-- What stands in a text where something else is due. -/
inductive Found where
  /-- The value `null`. -/
  | null
  /-- A truth value. -/
  | flag (value : Bool)
  /-- A number. -/
  | number (value : Json.Number)
  /-- A text. -/
  | text (value : String)
  /-- An array. -/
  | array
  /-- An object. -/
  | object

/-- What is due at a place of a text. -/
inductive Expected where
  /-- A node. -/
  | node
  /-- An offset, a line or a column. -/
  | offset
  /-- A text. -/
  | text
  /-- An array. -/
  | list
  /-- A truth value. -/
  | flag
  /-- The name of a kind. -/
  | kind
  /-- The position of a kind among all kinds. -/
  | kindPosition
  /-- The options of an import. -/
  | importOptions
  /-- An argument of a mixin call. -/
  | argument
  /-- A parameter of a mixin definition. -/
  | parameter
  /-- The answer of the parsing service. -/
  | response
  /-- A syntax error reported by the parsing service. -/
  | report
  /-- The items of an array that stands for a reported syntax error. -/
  | reportItems
  /-- That many items of an array. -/
  | items (count : Nat)
  deriving DecidableEq, Repr

/-- The members that may hold things of several types. -/
inductive Loose where
  /-- A loosely typed value. -/
  | value
  /-- The name of a declaration. -/
  | declaredName
  deriving DecidableEq, Repr

/-- Why a text is not a syntax tree. -/
inductive DecodeError where
  /-- The text is not JSON. -/
  | malformed (fault : Json.Fault)
  /-- A value has the wrong type. -/
  | wrongType (found : Found) (expected : Expected)
  /-- A value has the right type and is out of range. -/
  | wrongValue (found : Found) (expected : Expected)
  /-- An array has the wrong length. -/
  | wrongLength (length : Nat) (expected : Expected)
  /-- There is no kind of that name. -/
  | unknownKind (name : String)
  /-- A member is missing. -/
  | missing (member : String)
  /-- A member is given twice. -/
  | duplicate (member : String)
  /-- A member has none of the types that it may have. -/
  | unreadable (member : Loose)

/-- The wording of what was found. -/
def Found.describe : Found → String
  | .null => "null"
  | .flag true => "boolean `true`"
  | .flag false => "boolean `false`"
  | .number (.decimal x) => "floating point `" ++ (Json.Number.decimal x).text ++ "`"
  | .number n => "integer `" ++ n.text ++ "`"
  | .text s => "string " ++ Text.quoted s
  | .array => "sequence"
  | .object => "map"

/-- The wording of what was due. -/
def Expected.describe : Expected → String
  | .node => "struct Node"
  | .offset => "usize"
  | .text => "a string"
  | .list => "a sequence"
  | .flag => "a boolean"
  | .kind => "variant identifier"
  | .kindPosition => "variant index 0 <= i < 35"
  | .importOptions => "struct ImportOptions"
  | .argument => "struct MixinArgument"
  | .parameter => "struct MixinParameter"
  | .response => "struct AdapterResponse"
  | .report => "struct SyntaxReport"
  | .reportItems => "struct SyntaxReport with 4 elements"
  | .items 1 => "1 element in sequence"
  | .items count => s!"{count} elements in sequence"

/-- The name of a loosely typed member's type in messages. -/
def Loose.describe : Loose → String
  | .value => "Value"
  | .declaredName => "DeclarationName"

/-- All kinds, each in backticks. -/
def kindList : String :=
  ", ".intercalate (Kind.all.map fun kind => "`" ++ kind.name ++ "`")

/-- The wording of an error. -/
def DecodeError.message : DecodeError → String
  | .malformed fault => fault.message
  | .wrongType found expected =>
    "invalid type: " ++ found.describe ++ ", expected " ++ expected.describe
  | .wrongValue found expected =>
    "invalid value: " ++ found.describe ++ ", expected " ++ expected.describe
  | .wrongLength length expected =>
    s!"invalid length {length}, expected " ++ expected.describe
  | .unknownKind name => "unknown variant `" ++ name ++ "`, expected one of " ++ kindList
  | .missing member => "missing field `" ++ member ++ "`"
  | .duplicate member => "duplicate field `" ++ member ++ "`"
  | .unreadable member =>
    "data did not match any variant of untagged enum " ++ member.describe

/-- What a JSON value is found to be. -/
def Found.ofJson : Json → Found
  | .null => .null
  | .flag b => .flag b
  | .number n => .number n
  | .text s => .text s
  | .array _ => .array
  | .object _ => .object

/-- What a draft is found to be. Of arrays and objects only the beginning counts. -/
def Found.ofDraft : Json.Draft → Except Json.Fault Found
  | .null => .ok .null
  | .flag b => .ok (.flag b)
  | .number n => n.map .number
  | .text s => s.map .text
  | .array _ _ => .ok .array
  | .object _ _ => .ok .object
  | .broken why => .error why.reading

end ImportSweep.Tree
