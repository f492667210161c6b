/-!
# Faults of JSON text

The reasons why a text is not JSON, with their wording.
-/

namespace ImportSweep.Json

/-- Why a text cannot be read as JSON. -/
inductive Fault where
  /-- The text ends inside an array. -/
  | endInArray
  /-- The text ends inside an object. -/
  | endInObject
  /-- The text ends inside a quoted text. -/
  | endInText
  /-- The text ends where a value is due. -/
  | endInValue
  /-- A member's name is not followed by a colon. -/
  | expectedColon
  /-- An array's item is followed by neither a comma nor the closing bracket. -/
  | expectedArrayEnd
  /-- An object's member is followed by neither a comma nor the closing brace. -/
  | expectedObjectEnd
  /-- A word begins like `true`, `false` or `null` and goes on otherwise. -/
  | expectedWord
  /-- No value begins with the character found. -/
  | expectedValue
  /-- A backslash is followed by no known escape. -/
  | invalidEscape
  /-- A number is not written as JSON numbers are. -/
  | invalidNumber
  /-- A number is beyond the largest double. -/
  | numberOutOfRange
  /-- A quoted text holds bytes that are no characters. -/
  | invalidCodePoint
  /-- A quoted text holds a control character. -/
  | controlCharacter
  /-- An object's member does not begin with a quoted text. -/
  | keyNotText
  /-- An escaped surrogate has no partner. -/
  | loneSurrogate
  /-- An escaped leading surrogate is followed by no escape. -/
  | endOfHexEscape
  /-- A comma is followed by a closing bracket. -/
  | trailingComma
  /-- Something stands after the value. -/
  | trailingCharacters
  /-- Arrays and objects are nested too deep. -/
  | tooDeep
  deriving DecidableEq, Repr

namespace Fault

/-- The text ended too early, as against being wrong. -/
def isEnd : Fault → Bool
  | endInArray | endInObject | endInText | endInValue => true
  | _ => false

/-- The wording of a fault. -/
def message : Fault → String
  | endInArray => "EOF while parsing a list"
  | endInObject => "EOF while parsing an object"
  | endInText => "EOF while parsing a string"
  | endInValue => "EOF while parsing a value"
  | expectedColon => "expected `:`"
  | expectedArrayEnd => "expected `,` or `]`"
  | expectedObjectEnd => "expected `,` or `\x7d`"
  | expectedWord => "expected ident"
  | expectedValue => "expected value"
  | invalidEscape => "invalid escape"
  | invalidNumber => "invalid number"
  | numberOutOfRange => "number out of range"
  | invalidCodePoint => "invalid unicode code point"
  | controlCharacter => "control character (\\u0000-\\u001F) found while parsing a string"
  | keyNotText => "key must be a string"
  | loneSurrogate => "lone leading surrogate in hex escape"
  | endOfHexEscape => "unexpected end of hex escape"
  | trailingComma => "trailing comma"
  | trailingCharacters => "trailing characters"
  | tooDeep => "recursion limit exceeded"

end Fault

/-- Why a text breaks off, told to one who reads the value there and to one who passes over it. -/
structure Break where
  /-- The fault for a reader of the value. -/
  reading : Fault
  /-- The fault for one who only looks for the value's end. -/
  passing : Fault
  deriving DecidableEq, Repr

/-- A break that is the same fault for all. -/
def Break.both (fault : Fault) : Break :=
  ⟨fault, fault⟩

end ImportSweep.Json
